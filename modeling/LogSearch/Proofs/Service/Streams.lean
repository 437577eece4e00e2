/-
The streams that answer searches.

A search that was taken in goes on by itself: its workers make their steps, at some moment there is
nothing left to wait for, and then it ends. Its stream has a line for every slice of records that
its sink has passed on so far, and one last line once the search has ended (`Stream.lines`). How
such a stream stands, whatever its workers do, is `Stream.Tidy`; how it reads in the end is
`Stream.ReadsAs`.

That one worker after the other goes all the way, which is how the program searches, is a way for
a search to come to its ending (`Stream.endingOf_finish`).
-/
import LogSearch.Proofs.Search.Slices
import LogSearch.Service.Handling

set_option autoImplicit false

namespace LogSearch

/-- What a search with a report has found. -/
def Search.Outcome.found? (outcome : Search.Outcome) : Option Search.Results :=
  match outcome.report with
  | .error _ => none
  | .ok _ => some outcome.results

namespace Service

open Json (Value)

/-! ## Streams -/

/-- A search that was taken in, with the stream that answers it. -/
structure Stream where
  /-- What is searched for, and how. -/
  job : Search.Job
  /-- The most records. -/
  limit : Int
  /-- The logs. -/
  tasks : List Search.Task
  /-- The number of its signal. -/
  token : Option Nat
  /-- How far it is. -/
  run : Search.Run Search.Results
  /-- What came of it, once it has ended. -/
  outcome : Option Search.Outcome := none

namespace Stream

/-- A search with a worker for each share of its logs. -/
def opening (job : Search.Job) (signal : Search.Signal) (tasks : List Search.Task) :
    Search.Run Search.Results :=
  match Search.shares (Search.workerCount job.environment job.settings tasks.length) tasks with
  | .error e => ⟨[.broken (.unshared e)], { signal, sink := {} }⟩
  | .ok shares => .ofShares shares signal {}

/-- The ending that a search over some logs comes to. -/
def endingOf (job : Search.Job) (tasks : List Search.Task) (run : Search.Run Search.Results) :
    Search.Ending Search.Results where
  report :=
    if tasks.isEmpty then .ok { total := 0 }
    else
      run.report tasks.length
        (Search.workerCount job.environment job.settings tasks.length)
  sink := run.progress.sink

/-- A search as the service takes it in. -/
def begin (p : SearchParameters) (s : Service) : Stream :=
  let job : Search.Job :=
    { criteria := p.criteria, environment := s.environment, settings := s.engine.settings }
  { job
    limit := p.maxResults
    tasks := s.workspace.tasks
    token := s.engine.token
    run := opening job s.engine.signal s.workspace.tasks }

/-- What the sink holds. -/
def results (st : Stream) : Search.Results :=
  st.run.progress.sink

/-- Whether there is nothing left to wait for. A search does not wait for the other workers when
one of them has broken off. -/
def isOver (st : Stream) : Bool :=
  st.run.workers.all (·.isDone) || st.run.abort?.isSome

/-- The ending that a search has come to. -/
def ending (st : Stream) : Search.Ending Search.Results :=
  endingOf st.job st.tasks st.run

/-- A worker makes a step. -/
def work (worker : Nat) (st : Stream) : Stream :=
  { st with run := st.run.stepAt st.job (Search.Results.sink st.limit) worker }

/-- One worker after the other goes all the way. -/
def worked (st : Stream) : Stream :=
  { st with run := st.run.finish st.job (Search.Results.sink st.limit) }

/-- The search finds its signal up, if it is. -/
def heed (e : Search.Engine) (st : Stream) : Stream :=
  if (st.token.bind (e.signals[·]?)).any (·.isUp) then
    { st with run := { st.run with progress := { st.run.progress with
        signal := st.run.progress.signal.raise } } }
  else st

/-- The search has ended. -/
def close (outcome : Search.Outcome) (st : Stream) : Stream :=
  { st with outcome := some outcome }

/-- The lines so far. -/
def lines (st : Stream) : List Value :=
  match st.outcome with
  | none => st.results.deliveries.toList.map batchLine
  | some outcome => streamLines st.job.criteria.expression.keywords outcome

/-- What was found by a search that has ended with a report. -/
def found? (st : Stream) : Option Search.Results :=
  match st.outcome with
  | some ⟨results, .ok _⟩ => some results
  | _ => none

/-- What was found is a matter of what came of the search. -/
theorem found?_eq_bind (st : Stream) : st.found? = st.outcome.bind Search.Outcome.found? := by
  rw [found?]
  rcases st.outcome with _ | ⟨results, _ | summary⟩ <;> rfl

/-- What a search counts for while others are asked for. -/
def standing (st : Stream) : Option Search.Outcome × Option Nat :=
  (st.outcome, st.token)

end Stream

/-! ## Streams on their way -/

namespace Stream

variable {st : Stream}

/-- How a stream stands: what its search passes on is as it should be, and it holds what was
passed on when the search ended. -/
structure Tidy (st : Stream) : Prop where
  /-- There is room for a record. -/
  pos : 0 < st.limit
  /-- What is passed on. -/
  results : st.results.Tidy st.limit
  /-- What was passed on. -/
  outcome : ∀ outcome ∈ st.outcome, outcome.results.Tidy st.limit

theorem heed_fields (e : Search.Engine) (st : Stream) :
    (st.heed e).limit = st.limit ∧ (st.heed e).token = st.token
      ∧ (st.heed e).outcome = st.outcome ∧ (st.heed e).results = st.results
      ∧ (st.heed e).job = st.job := by
  rw [heed]
  split
  · exact ⟨rfl, rfl, rfl, rfl, rfl⟩
  · exact ⟨rfl, rfl, rfl, rfl, rfl⟩

theorem standing_heed (e : Search.Engine) (st : Stream) :
    (st.heed e).standing = st.standing := by
  obtain ⟨-, htoken, houtcome, -⟩ := st.heed_fields e
  rw [standing, standing, htoken, houtcome]

theorem standing_work (worker : Nat) (st : Stream) : (st.work worker).standing = st.standing :=
  rfl

theorem lines_heed (e : Search.Engine) (st : Stream) : (st.heed e).lines = st.lines := by
  obtain ⟨-, -, houtcome, hresults, hjob⟩ := st.heed_fields e
  rw [lines, lines, houtcome, hresults, hjob]

theorem Tidy.heed (h : st.Tidy) (e : Search.Engine) : (st.heed e).Tidy := by
  obtain ⟨hlimit, -, houtcome, hresults, -⟩ := st.heed_fields e
  refine ⟨?_, ?_, ?_⟩
  · rw [hlimit]
    exact h.pos
  · rw [hlimit, hresults]
    exact h.results
  · rw [hlimit, houtcome]
    exact h.outcome

theorem Tidy.work (h : st.Tidy) (worker : Nat) : (st.work worker).Tidy :=
  ⟨h.pos, (Search.Run.tidy_stepAt h.results worker).1, h.outcome⟩

/-- What becomes of a stream while it is read: the lines that it has stay, and once its search has
ended, it gets no more of them. -/
structure GoesOn (st next : Stream) : Prop where
  grows : st.lines <+: next.lines
  stays : st.outcome ≠ none → next.lines = st.lines ∧ next.outcome = st.outcome

theorem GoesOn.refl (st : Stream) : st.GoesOn st :=
  ⟨List.prefix_rfl, fun _ => ⟨rfl, rfl⟩⟩

theorem goesOn_heed (e : Search.Engine) (st : Stream) : st.GoesOn (st.heed e) := by
  have hlines := st.lines_heed e
  exact ⟨hlines.symm ▸ List.prefix_rfl, fun _ => ⟨hlines, (st.heed_fields e).2.2.1⟩⟩

/-- A step of a worker adds lines. Behind the end of the search it adds none. -/
theorem Tidy.goesOn_work (h : st.Tidy) (worker : Nat) : st.GoesOn (st.work worker) := by
  have hextends : (st.work worker).results.Extends st.results :=
    (Search.Run.tidy_stepAt h.results worker).2
  have houtcome : (st.work worker).outcome = st.outcome := rfl
  cases hended : st.outcome with
  | none =>
    refine ⟨?_, fun hnot => absurd hended hnot⟩
    rw [lines, lines, houtcome, hended]
    exact hextends.map batchLine
  | some outcome =>
    have hlines : (st.work worker).lines = st.lines := by
      rw [lines, lines, houtcome, hended]
      rfl
    exact ⟨hlines ▸ List.prefix_rfl, fun _ => ⟨hlines, houtcome⟩⟩

/-- The end of a search adds the last line. -/
theorem goesOn_close (hopen : st.outcome = none) (report : Except Search.EngineError Search.Summary) :
    st.GoesOn (st.close ⟨st.results, report⟩) := by
  refine ⟨?_, fun hnot => absurd hopen hnot⟩
  rw [lines, lines, hopen]
  exact List.prefix_append _ _

theorem found?_begin (p : SearchParameters) (s : Service) : (Stream.begin p s).found? = none :=
  rfl

theorem Tidy.begin {p : SearchParameters} (hpos : 0 < p.maxResults) (s : Service) :
    (Stream.begin p s).Tidy := by
  refine ⟨hpos, ?_, nofun⟩
  have hempty : (Stream.begin p s).results = {} := by
    rw [Stream.results, Stream.begin]
    dsimp only
    rw [opening]
    split <;> rfl
  rw [hempty]
  exact Search.Results.tidy_empty _

end Stream

/-! ## Endings -/

/-- When one worker after the other has gone all the way, a search has come to the ending of the
run of the program. -/
theorem Stream.endingOf_finish (job : Search.Job) (limit : Int) (signal : Search.Signal)
    (tasks : List Search.Task) :
    endingOf job tasks ((opening job signal tasks).finish job (Search.Results.sink limit))
      = Search.run job (Search.Results.sink limit) signal {} tasks := by
  rw [Search.run, endingOf, opening]
  by_cases hempty : tasks.isEmpty = true
  · rw [if_pos hempty, if_pos hempty, Search.shares, if_pos hempty]
    rfl
  · rw [if_neg hempty, if_neg hempty]
    dsimp only
    cases Search.shares (Search.workerCount job.environment job.settings tasks.length) tasks with
    | error e =>
      have hstays := Search.Worker.run_of_isDone job (Search.Results.sink limit)
        ({ signal, sink := {} } : Search.Progress Search.Results)
        (w := .broken (.unshared e)) rfl
      simp only [Search.Run.finish, Search.Run.finishEach, hstays]
      rfl
    | ok shares => rfl

/-- How the stream of a search reads that has ended with some outcome: a line for each of some
slices, none of them empty, and one last line. -/
def Stream.ReadsAs (st : Stream) (outcome : Search.Outcome) (slices : List (List Record))
    (last : Members) : Prop :=
  st.lines = slices.map batchLine ++ [.object last]
    ∧ (∀ slice ∈ slices, slice ≠ [])
    ∧ match outcome.report with
      | .error e => last = [("type", .string "error"), ("error", .string e.message)]
      | .ok _ => last.get "type" = .string "summary"
          ∧ last.get "total" = .nat slices.flatten.length
          ∧ slices.flatten.length ≤ st.limit
          ∧ outcome.results.records.toList = slices.flatten

theorem Stream.Tidy.exists_readsAs {st : Stream} (h : st.Tidy) {outcome : Search.Outcome}
    (hended : st.outcome = some outcome) :
    ∃ last, st.ReadsAs outcome outcome.results.deliveries.toList last := by
  obtain ⟨hflatten, hwhole, hroom⟩ := h.outcome outcome hended
  have hpos := h.pos
  have hlines : st.lines = outcome.results.deliveries.toList.map batchLine
      ++ [lastLine st.job.criteria.expression.keywords outcome] := by
    simp only [lines, hended, streamLines]
  cases hreport : outcome.report with
  | error e =>
    rw [lastLine, hreport] at hlines
    refine ⟨_, hlines, hwhole, ?_⟩
    rw [hreport]
  | ok summary =>
    rw [lastLine, hreport] at hlines
    refine ⟨_, hlines, hwhole, ?_⟩
    rw [hreport, hflatten, Array.length_toList]
    exact ⟨rfl, rfl, by omega, rfl⟩

end Service

end LogSearch
