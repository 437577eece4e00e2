/-
A search by one worker, and what it finds.

With one worker and nothing outside that calls the search off, a search is a walk
over the logs in their order: `Job.tour` hands over one haul after the other and
ends when the sink is full. `run_ready_eq_tour` says that the steps of the worker
come to the same, up to the number of looks at the signal, which shows in no
answer. Since hauls do not depend on how often a scan waits, neither does a tour.

The main statement is `run_eq_tour`: the whole search of one worker is a tour, so
what a search answers can be proved of the tour, which knows nothing of looks,
checkpoints and steps.
-/
import LogSearch.Proofs.Search.Delivery
import LogSearch.Proofs.Search.Shares
import LogSearch.Proofs.Search.Solo
import LogSearch.Search.Run

set_option autoImplicit false

namespace LogSearch.Search

/-! ## Forgetting the number of looks -/

namespace Progress

variable {σ : Type} (p : Progress σ)

/-- The progress without the number of looks. -/
def settled : Progress σ :=
  { p with signal := { p.signal with looks := 0 } }

theorem settled_wait (n : Nat) : (p.wait n).settled = p.settled := rfl

theorem settled_handOver (sink : Sink σ) (source : String) (haul : Haul) :
    (p.handOver sink source haul).settled = p.settled.handOver sink source haul := by
  rw [handOver, handOver, deliver, deliver]
  by_cases hempty : haul.records.isEmpty = true
  · rw [if_pos hempty, if_pos hempty]
    rfl
  · rw [if_neg hempty, if_neg hempty]
    by_cases hfull : (sink.accept haul.records.toList p.sink).1 = true
    · simp only [settled, hfull, if_true, Signal.raise]
    · simp only [settled, hfull]
      rfl

/-- A look at a signal that is up changes nothing but the number of looks. -/
theorem settled_look (hup : p.signal.isUp = true) : p.look.2.settled = p.settled := by
  simp [look, Signal.look, settled, hup]

theorem handOver_raisedAt (sink : Sink σ) (source : String) (haul : Haul) :
    (p.handOver sink source haul).signal.raisedAt = p.signal.raisedAt := by
  rw [handOver, deliver]
  dsimp only
  split
  · rfl
  · dsimp only
    split <;> rfl

end Progress

/-! ## The tour -/

/-- Goes over some logs: each that can be read is handed over, and the tour ends when
this puts up the signal. -/
def Job.tour {σ : Type} (job : Job) (sink : Sink σ) : List Task → Progress σ → Progress σ
  | [], p => p
  | task :: tasks, p =>
    match task.resolve job.environment.hasZstd with
    | .error e => job.tour sink tasks (p.fail ⟨task.source, e.message⟩)
    | .ok text =>
      let q := p.handOver sink task.source (job.haulOf task text)
      if q.signal.isUp then q else job.tour sink tasks q

section Tour

variable {σ : Type} (job : Job) (sink : Sink σ) {task : Task} (tasks : List Task)
variable (p : Progress σ)

theorem Job.tour_error {e : Payload.Error}
    (he : task.resolve job.environment.hasZstd = .error e) :
    job.tour sink (task :: tasks) p
      = job.tour sink tasks (p.fail ⟨task.source, e.message⟩) := by
  rw [tour, he]

theorem Job.tour_ok {text : String} (ht : task.resolve job.environment.hasZstd = .ok text) :
    job.tour sink (task :: tasks) p
      = if (p.handOver sink task.source (job.haulOf task text)).signal.isUp
        then p.handOver sink task.source (job.haulOf task text)
        else job.tour sink tasks (p.handOver sink task.source (job.haulOf task text)) := by
  rw [tour, ht]

/-- **The worker's way is the tour.** A worker alone that nobody calls off gets to its
end, and up to the number of looks it has made the tour. -/
theorem Worker.run_ready_eq_tour (paced : 1 ≤ job.settings.taskBatchSize)
    (hup : p.signal.isUp = false) (hraised : p.signal.raisedAt = none) :
    ∃ q, (ready tasks).run job sink p = (finished, q) ∧ q.signal.raisedAt = none
      ∧ q.settled = job.tour sink tasks p.settled := by
  -- the induction is on the logs ahead; the signal stays clear until a haul is refused
  induction tasks generalizing p with
  | nil => exact ⟨p, run_ready_nil job sink p, hraised, rfl⟩
  | cons task tasks ih =>
    have hclear : ∀ n, p.signal.ClearFor n := Signal.clearFor_of_raisedAt hup hraised
    cases hresolve : task.resolve job.environment.hasZstd with
    | error e =>
      rw [run_ready_error job sink (hclear 1) hresolve, job.tour_error sink tasks _ hresolve]
      exact ih _ hup hraised
    | ok text =>
      let looks := (job.checkpoints task text).length
      let q := ((p.wait 1).wait looks).handOver sink task.source (job.haulOf task text)
      have hrun : (ready (task :: tasks)).run job sink p = (behind tasks).run job sink q := by
        rw [run_ready_ok job sink (hclear 1) hresolve,
          run_start_clear job sink task text tasks (hclear (1 + looks)).wait, run_holding]
      have hq : q.settled = p.settled.handOver sink task.source (job.haulOf task text) := by
        rw [Progress.settled_handOver, Progress.settled_wait, Progress.settled_wait]
      have hqup : q.settled.signal.isUp = q.signal.isUp := rfl
      rw [hrun, job.tour_ok sink tasks _ hresolve, ← hq, hqup]
      have hqraised : q.signal.raisedAt = none :=
        (Progress.handOver_raisedAt _ sink _ _).trans hraised
      by_cases hfull : q.signal.isUp = true
      · -- the look behind the log finds the signal up, and only counts as a look
        rw [if_pos hfull, run_behind_up job sink tasks (fun h => by simp [h.1] at hfull)]
        exact ⟨q.look.2, rfl, hqraised, q.settled_look hfull⟩
      · rw [Bool.not_eq_true] at hfull
        rw [hfull, run_behind_clear job sink tasks paced
          (Signal.clearFor_of_raisedAt hfull hqraised 1)]
        exact ih (q.wait 1) hfull hqraised

end Tour

/-- The same rules with another interval between the looks of a scan. -/
def Job.withInterval (job : Job) (interval : Int) : Job :=
  { job with settings := { job.settings with lineYieldInterval := interval } }

/-- How often a scan waits has no influence on a tour. -/
theorem Job.tour_withInterval {σ : Type} (job : Job) (sink : Sink σ) (interval : Int)
    (tasks : List Task) (p : Progress σ) :
    (job.withInterval interval).tour sink tasks p = job.tour sink tasks p := by
  induction tasks generalizing p with
  | nil => rfl
  | cons task tasks ih =>
    cases hresolve : task.resolve job.environment.hasZstd with
    | error e =>
      rw [job.tour_error sink tasks p hresolve, ← ih]
      exact (job.withInterval interval).tour_error sink tasks p hresolve
    | ok text =>
      rw [job.tour_ok sink tasks p hresolve, ← ih]
      exact (job.withInterval interval).tour_ok sink tasks p hresolve

/-! ## The search of one worker -/

/-- How a search of one worker through some logs ends, given the progress at its end. -/
def Progress.ending {σ : Type} (q : Progress σ) (tasks : List Task) : Ending σ where
  report :=
    if tasks.isEmpty then .ok { total := 0 }
    else .ok {
      total := tasks.length
      workers := 1
      completed := q.completed
      matched := q.matched
      failures := q.failures.toList
      isFull := q.isFull
      isCancelled := q.look.1 && !q.isFull }
  sink := q.sink

/-- The number of looks shows in no answer. -/
theorem Progress.ending_settled {σ : Type} {q : Progress σ} (hraised : q.signal.raisedAt = none)
    (tasks : List Task) : q.settled.ending tasks = q.ending tasks := by
  have hlook : q.settled.look.1 = q.look.1 := by
    simp only [look, Signal.look, settled, hraised, Option.any_none]
  rw [ending, ending, hlook]
  rfl

section Alone

variable {σ : Type} (job : Job) (sink : Sink σ) (tasks : List Task)
variable (alone : workerCount job.environment job.settings tasks.length = 1)

include alone

/-- What a search comes to whose only worker has got to its end. -/
theorem run_eq_ending {signal : Signal} {start : σ} {q : Progress σ}
    (hrun : (Worker.ready tasks).run job sink { signal, sink := start } = (.finished, q)) :
    run job sink signal start tasks = q.ending tasks := by
  by_cases hempty : tasks = []
  · subst hempty
    rw [Worker.run_ready_nil, Prod.mk.injEq] at hrun
    rw [run_nil, Progress.ending, if_pos List.isEmpty_nil, ← hrun.2]
  · have hshares := shares_one hempty
    rw [← alone] at hshares
    rw [run_of_shares job sink signal start hempty hshares, Progress.ending,
      if_neg (by rwa [List.isEmpty_iff]), alone]
    simp only [Run.finish, Run.ofShares, List.map_cons, List.map_nil, Run.finishEach, hrun]
    rfl

/-- **A search by one worker is a tour.** -/
theorem run_eq_tour (paced : 1 ≤ job.settings.taskBatchSize) (start : σ) :
    run job sink {} start tasks
      = (job.tour sink tasks { signal := {}, sink := start }).ending tasks := by
  obtain ⟨q, hrun, hraised, hq⟩ :=
    Worker.run_ready_eq_tour job sink tasks { signal := {}, sink := start } paced rfl rfl
  rw [run_eq_ending job sink tasks alone hrun, ← Progress.ending_settled hraised, hq]
  rfl

end Alone

end LogSearch.Search
