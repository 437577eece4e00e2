/-
The service and the streams of its searches.

While searches go on, other requests come in, and the reader of a stream may go away at any
moment, or never begin to read. So a state is the service together with the searches that it has
taken in so far, the first one first (`Traffic`), and events come in any order.

Whatever the event, it comes to one of five things (`Traffic.step_cases`), and what is said of
events is said of these.

The invariant is `Traffic.Sound`: if the slot is taken, then by the search that was taken in last,
and all others have ended; if it is free, all have. Everything that those who send requests can
rely on follows from it (`Traffic.Orderly`).

How the program answers a search, without anything in between, is one of the orders
(`Traffic.exists_search_eq_after`).
-/
import LogSearch.Proofs.Service.Requests
import LogSearch.Proofs.Service.Streams

set_option autoImplicit false

namespace LogSearch.Service

open Json (Value)

/-! ## What can happen -/

/-- The service with the searches that it has taken in. -/
structure Traffic where
  /-- The service. -/
  service : Service
  /-- The searches, the first one first. -/
  streams : List Stream := []

/-- What can happen. -/
inductive Event where
  /-- A request comes in. -/
  | request (link : Remote.Link) (r : Request)
  /-- A worker of a search makes a step. -/
  | work (stream worker : Nat)
  /-- A search with nothing left to wait for ends. -/
  | finish (stream : Nat)
  /-- The reader of a stream goes away. -/
  | leave (stream : Nat)

namespace Traffic

/-- A search is asked for. A refusal leaves no stream. -/
def post (m : Members) (t : Traffic) : Traffic :=
  match t.service.receive m with
  | (.error _, service) => { t with service }
  | (.ok p, service) => { service, streams := t.streams ++ [.begin p service] }

/-- The service has done something else, and its searches look at their signals. -/
def heed (service : Service) (t : Traffic) : Traffic :=
  { service, streams := t.streams.map (·.heed service.engine) }

/-- The search with some number ends. -/
def close (i : Nat) (st : Stream) (t : Traffic) : Traffic :=
  let ended := t.service.engine.complete st.ending
  { service := { t.service with engine := ended.2 }
    streams := t.streams.set i (st.close ended.1) }

/-- What happens at an event. -/
def step (t : Traffic) : Event → Traffic
  | .request link r =>
    match r.endpoint, r.body.members with
    | .ok .search, .ok m => t.post m
    | _, _ => t.heed (t.service.handle link r).service
  | .work i worker =>
    match t.streams[i]? with
    | none => t
    | some st => { t with streams := t.streams.set i (st.work worker) }
  | .finish i =>
    match t.streams[i]? with
    | none => t
    | some st => if st.outcome.isNone && st.isOver then t.close i st else t
  | .leave i =>
    match t.streams[i]? with
    | none => t
    | some st =>
      if st.outcome.isNone then t.heed { t.service with engine := t.service.engine.cancel.2 }
      else t

/-- The state behind a number of events. -/
def after (t : Traffic) (history : List Event) : Traffic :=
  history.foldl step t

end Traffic

/-! ## What an event can be -/

namespace Traffic

variable {t : Traffic}

/-- A search is taken in. It claims the slot, and its stream is the last one. -/
def takeIn (p : SearchParameters) (t : Traffic) : Traffic :=
  let service := { t.service with engine := t.service.engine.claimed }
  { service, streams := t.streams ++ [.begin p service] }

/-- What becomes of the service and its streams at an event. -/
inductive Makes (t : Traffic) : Event → Traffic → Prop
  /-- A search is refused, or there is nothing to be done. -/
  | idle {event : Event} : Makes t event t
  /-- A search is in order, and the slot is free. -/
  | began {event : Event} {m : Members} {p : SearchParameters}
      (hread : readSearch t.service.engine.settings m = .ok p)
      (hfree : t.service.engine.isTaken = false) : Makes t event (t.takeIn p)
  /-- The service does something that neither claims nor frees the slot. -/
  | heeded {event : Event} {service : Service}
      (hengine : service.engine = t.service.engine
        ∨ service.engine = t.service.engine.cancel.2) : Makes t event (t.heed service)
  /-- A worker makes a step. -/
  | worked {i : Nat} {st : Stream} (worker : Nat) (hst : t.streams[i]? = some st) :
      Makes t (.work i worker) { t with streams := t.streams.set i (st.work worker) }
  /-- A search ends. -/
  | closed {i : Nat} {st : Stream} (hst : t.streams[i]? = some st) (hopen : st.outcome = none) :
      Makes t (.finish i) (t.close i st)

/-- A refused search changes nothing at all. -/
theorem post_of_refused {m : Members} {refusal : Refusal}
    (h : (t.service.receive m).1 = .error refusal) : t.post m = t := by
  rcases t.service.receive_cases m with ⟨other, hreceive⟩ | ⟨p, -, -, hreceive⟩
  · rw [post, hreceive]
  · rw [hreceive] at h
    cases h

/-- **What an event can be.** -/
theorem step_cases (t : Traffic) (event : Event) :
    ∃ next, t.step event = next ∧ t.Makes event next := by
  refine ⟨_, rfl, ?_⟩
  cases event with
  | request link r =>
    rw [step]
    split
    · rename_i m _ _
      rcases t.service.receive_cases m with ⟨refusal, hreceive⟩ | ⟨p, hread, hfree, hreceive⟩
      · rw [post_of_refused (by rw [hreceive])]
        exact .idle
      · rw [post, hreceive]
        exact .began hread hfree
    · rename_i hnot
      exact .heeded (engine_handle link (fun hsearch m hm => hnot m hsearch hm) t.service)
  | work i worker =>
    rw [step]
    split
    · exact .idle
    · rename_i st hst
      exact .worked worker hst
  | finish i =>
    rw [step]
    split
    · exact .idle
    · rename_i st hst
      split
      · rename_i hends
        rw [Bool.and_eq_true, Option.isNone_iff_eq_none] at hends
        exact .closed hst hends.1
      · exact .idle
  | leave i =>
    rw [step]
    split
    · exact .idle
    · split
      · exact .heeded (.inr rfl)
      · exact .idle

end Traffic

/-! ## The invariant -/

namespace Traffic

variable {t : Traffic}

/-- The slot is taken by the search that was taken in last, if it has not ended; all others have.
What is remembered is what the last of those with a report has found. -/
structure Sound (t : Traffic) : Prop where
  tidy : ∀ st ∈ t.streams, st.Tidy
  latest : ∀ i st, t.streams[i]? = some st → st.outcome = none →
    i + 1 = t.streams.length ∧ t.service.engine.isTaken = true
      ∧ t.service.engine.token = st.token
  taken : t.service.engine.isTaken = true → ∃ st ∈ t.streams, st.outcome = none
  remembered : t.service.engine.lastResults = (t.streams.filterMap Stream.found?).getLast?

/-- Without an end and without a new search, all stays sound. -/
theorem Sound.of_standing (h : t.Sound) {next : Traffic}
    (htidy : ∀ st ∈ next.streams, st.Tidy)
    (hstanding : next.streams.map Stream.standing = t.streams.map Stream.standing)
    (htaken : next.service.engine.isTaken = t.service.engine.isTaken)
    (htoken : next.service.engine.token = t.service.engine.token)
    (hlast : next.service.engine.lastResults = t.service.engine.lastResults) : next.Sound := by
  have hlength : next.streams.length = t.streams.length := by
    simpa only [List.length_map] using congrArg List.length hstanding
  refine ⟨htidy, ?_, ?_, ?_⟩
  -- a search that is open now was open before, with the same signal
  · intro i st hst hopen
    have hat : (t.streams.map Stream.standing)[i]? = some (none, st.token) := by
      rw [← hstanding, List.getElem?_map, hst, Option.map_some, Stream.standing, hopen]
    rw [List.getElem?_map, Option.map_eq_some_iff] at hat
    obtain ⟨before, hbefore, hsame⟩ := hat
    obtain ⟨hnone, hnumber⟩ := Prod.mk.inj hsame
    rw [hlength, htaken, htoken, ← hnumber]
    exact h.latest i before hbefore hnone
  · intro hyes
    obtain ⟨st, hst, hopen⟩ := h.taken (htaken ▸ hyes)
    have hmem : (none, st.token) ∈ next.streams.map Stream.standing := by
      rw [hstanding, ← hopen]
      exact List.mem_map_of_mem hst
    obtain ⟨later, hlater, hsame⟩ := List.mem_map.mp hmem
    exact ⟨later, hlater, (Prod.mk.inj hsame).1⟩
  · -- what was found shows in how a search stands
    have hfound (streams : List Stream) : streams.filterMap Stream.found?
        = (streams.map Stream.standing).filterMap (·.1.bind Search.Outcome.found?) := by
      rw [List.filterMap_map]
      exact congrArg (List.filterMap · streams) (funext Stream.found?_eq_bind)
    rw [hlast, h.remembered, hfound, hfound, hstanding]

/-- The service does something that neither claims nor frees the slot. -/
theorem Sound.heed (h : t.Sound) {service : Service}
    (hengine : service.engine = t.service.engine ∨ service.engine = t.service.engine.cancel.2) :
    (t.heed service).Sound := by
  have hsame : service.engine.isTaken = t.service.engine.isTaken
      ∧ service.engine.token = t.service.engine.token
      ∧ service.engine.lastResults = t.service.engine.lastResults := by
    rcases hengine with hsame | hcancel
    · rw [hsame]
      exact ⟨rfl, rfl, rfl⟩
    · rw [hcancel, Search.Engine.cancel_snd]
      exact ⟨rfl, rfl, rfl⟩
  refine h.of_standing ?_ ?_ hsame.1 hsame.2.1 hsame.2.2
  · intro st hst
    obtain ⟨before, hbefore, rfl⟩ := List.mem_map.mp hst
    exact (h.tidy before hbefore).heed service.engine
  · rw [Traffic.heed, List.map_map]
    exact List.map_congr_left fun st _ => st.standing_heed service.engine

/-- A worker makes a step. -/
theorem Sound.work (h : t.Sound) {i : Nat} {st : Stream} (hst : t.streams[i]? = some st)
    (worker : Nat) : ({ t with streams := t.streams.set i (st.work worker) } : Traffic).Sound := by
  refine h.of_standing ?_ ?_ rfl rfl rfl
  · intro other hother
    rcases List.mem_or_eq_of_mem_set hother with hbefore | rfl
    · exact h.tidy other hbefore
    · exact (h.tidy st (List.mem_of_getElem? hst)).work worker
  · obtain ⟨hlt, hget⟩ := List.getElem?_eq_some_iff.mp hst
    have hbound : i < (t.streams.map Stream.standing).length := by rwa [List.length_map]
    have hsame : st.standing = (t.streams.map Stream.standing)[i] := by
      rw [List.getElem_map, hget]
    rw [List.map_set, Stream.standing_work, hsame, List.set_getElem_self]

/-- A search is taken in. -/
theorem Sound.takeIn (h : t.Sound) {m : Members} {p : SearchParameters}
    (hread : readSearch t.service.engine.settings m = .ok p)
    (hfree : t.service.engine.isTaken = false) : (t.takeIn p).Sound := by
  have hended : ∀ st ∈ t.streams, st.outcome ≠ none := by
    intro st hst hopen
    obtain ⟨i, hi⟩ := List.getElem?_of_mem hst
    have hyes := (h.latest i st hi hopen).2.1
    rw [hfree] at hyes
    cases hyes
  rw [Traffic.takeIn]
  refine ⟨?_, ?_, ?_, ?_⟩
  · intro st hst
    rcases List.mem_append.mp hst with hbefore | hnew
    · exact h.tidy st hbefore
    · obtain rfl := List.mem_singleton.mp hnew
      exact .begin (maxResults_pos hread) _
  · intro i st hst hopen
    dsimp only at hst ⊢
    rw [List.getElem?_append] at hst
    split at hst
    · exact absurd hopen (hended st (List.mem_of_getElem? hst))
    · rename_i hge
      obtain ⟨hlt, rfl⟩ := List.getElem?_eq_some_iff.mp hst
      rw [List.length_singleton] at hlt
      refine ⟨?_, rfl, ?_⟩
      · rw [List.length_append, List.length_singleton]
        omega
      · rw [List.getElem_singleton, Stream.begin]
  · intro _
    exact ⟨_, List.mem_append_right _ List.mem_cons_self, rfl⟩
  · rw [List.filterMap_append, List.filterMap_cons, Stream.found?_begin, List.filterMap_nil,
      List.append_nil]
    exact h.remembered

/-- A search that has not ended is behind all others, which have. -/
theorem Sound.exists_append (h : t.Sound) {i : Nat} {st : Stream}
    (hst : t.streams[i]? = some st) (hopen : st.outcome = none) :
    ∃ ended, t.streams = ended ++ [st] ∧ i = ended.length
      ∧ ∀ other ∈ ended, other.outcome ≠ none := by
  have hlast := (h.latest i st hst hopen).1
  obtain ⟨hlt, hget⟩ := List.getElem?_eq_some_iff.mp hst
  have hsplit : t.streams = t.streams.take i ++ [st] := by
    rw [← hget, List.take_append_getElem, hlast, List.take_length]
  refine ⟨t.streams.take i, hsplit, ?_, ?_⟩
  · rw [List.length_take, Nat.min_eq_left (Nat.le_of_lt hlt)]
  · intro other hother hnone
    obtain ⟨j, hj⟩ := List.getElem?_of_mem hother
    have hji : j < i := by
      have := (List.getElem?_eq_some_iff.mp hj).1
      rw [List.length_take] at this
      omega
    rw [List.getElem?_take_of_lt hji] at hj
    have := (h.latest j other hj hnone).1
    omega

/-- What is known of a search when it has ended. -/
theorem Sound.of_close (h : t.Sound) {i : Nat} {st : Stream} (hst : t.streams[i]? = some st)
    (hopen : st.outcome = none) {ended : List Stream} (hended : t.streams = ended ++ [st])
    (hi : i = ended.length) :
    t.close i st =
      { service := { t.service with engine :=
          { t.service.engine.remember st.ending with token := none, isTaken := false } }
        streams :=
          ended ++ [st.close ⟨st.results, st.ending.report.mapError .aborted⟩] } := by
  obtain ⟨-, htaken, -⟩ := h.latest i st hst hopen
  rw [Traffic.close, Search.Engine.complete_snd, Search.Engine.complete_fst htaken, hended, hi,
    List.set_append_right _ _ (Nat.le_refl _), Nat.sub_self, List.set_cons_zero]
  rfl

/-- A search ends. -/
theorem Sound.close (h : t.Sound) {i : Nat} {st : Stream} (hst : t.streams[i]? = some st)
    (hopen : st.outcome = none) : (t.close i st).Sound := by
  obtain ⟨ended, hended, hi, hothers⟩ := h.exists_append hst hopen
  have hremembered := h.remembered
  have htidy := h.tidy st (List.mem_of_getElem? hst)
  have hfound : st.found? = none := by rw [Stream.found?, hopen]
  rw [hended, List.filterMap_append, List.filterMap_cons, hfound, List.filterMap_nil,
    List.append_nil] at hremembered
  rw [h.of_close hst hopen hended hi]
  refine ⟨?_, ?_, fun htaken => absurd htaken Bool.false_ne_true, ?_⟩
  · intro other hother
    rcases List.mem_append.mp hother with hbefore | hlast
    · exact h.tidy other (hended ▸ List.mem_append_left _ hbefore)
    · obtain rfl := List.mem_singleton.mp hlast
      refine ⟨htidy.pos, htidy.results, ?_⟩
      rintro outcome houtcome
      obtain rfl := Option.some.inj houtcome
      exact htidy.results
  · intro j other hother hnone
    rcases List.mem_append.mp (List.mem_of_getElem? hother) with hbefore | hlast
    · exact absurd hnone (hothers other hbefore)
    · obtain rfl := List.mem_singleton.mp hlast
      cases hnone
  · rw [List.filterMap_append, List.filterMap_cons, List.filterMap_nil, Search.Engine.remember]
    -- only a report is remembered, and only a search with a report has found anything
    cases hreport : st.ending.report with
    | error a =>
      have hnone : (st.close ⟨st.results, Except.mapError .aborted (.error a)⟩).found? = none := rfl
      rw [hnone, List.append_nil]
      exact hremembered
    | ok summary =>
      have hsome : (st.close ⟨st.results, Except.mapError .aborted (.ok summary)⟩).found?
          = some st.ending.sink := rfl
      simp only [hsome, List.getLast?_append, List.getLast?_singleton, Option.some_or]

/-- **One event** leaves all sound. -/
theorem Sound.step (h : t.Sound) (event : Event) : (t.step event).Sound := by
  obtain ⟨next, hstep, hmakes⟩ := t.step_cases event
  rw [hstep]
  cases hmakes with
  | idle => exact h
  | began hread hfree => exact h.takeIn hread hfree
  | heeded hengine => exact h.heed hengine
  | worked worker hst => exact h.work hst worker
  | closed hst hopen => exact h.close hst hopen

/-- **Any history** leaves all sound. -/
theorem Sound.after (h : t.Sound) (history : List Event) : (t.after history).Sound := by
  induction history generalizing t with
  | nil => exact h
  | cons event history ih => exact ih (h.step event)

theorem sound_fresh (service : Service) (hfree : service.engine.isTaken = false)
    (hnone : service.engine.lastResults = none) : Sound { service } where
  tidy := fun _ hst => absurd hst List.not_mem_nil
  latest := by
    intro i st hst
    rw [List.getElem?_nil] at hst
    cases hst
  taken := by
    intro htaken
    rw [hfree] at htaken
    cases htaken
  remembered := hnone

/-! ## Reading along -/

/-- **What has been read stays.** Whatever happens, a stream goes on with the lines that it has. -/
theorem Sound.exists_goesOn (h : t.Sound) (event : Event) {i : Nat} {st : Stream}
    (hst : t.streams[i]? = some st) :
    ∃ later, (t.step event).streams[i]? = some later ∧ st.GoesOn later := by
  obtain ⟨next, hstep, hmakes⟩ := t.step_cases event
  obtain ⟨hlt, -⟩ := List.getElem?_eq_some_iff.mp hst
  rw [hstep]
  cases hmakes with
  | idle => exact ⟨st, hst, .refl st⟩
  | began =>
    refine ⟨st, ?_, .refl st⟩
    rw [Traffic.takeIn, List.getElem?_append_left hlt, hst]
  | @heeded _ service =>
    refine ⟨st.heed service.engine, ?_, st.goesOn_heed _⟩
    rw [Traffic.heed, List.getElem?_map, hst, Option.map_some]
  | @worked j other worker hother =>
    by_cases hij : j = i
    · subst hij
      obtain rfl : other = st := Option.some.inj (hother.symm.trans hst)
      exact ⟨other.work worker, List.getElem?_set_self hlt,
        (h.tidy other (List.mem_of_getElem? hst)).goesOn_work worker⟩
    · exact ⟨st, (List.getElem?_set_ne hij).trans hst, .refl st⟩
  | @closed j other hother hopen =>
    by_cases hij : j = i
    · subst hij
      obtain rfl : other = st := Option.some.inj (hother.symm.trans hst)
      obtain ⟨ended, hended, hj, -⟩ := h.exists_append hst hopen
      refine ⟨_, ?_, Stream.goesOn_close hopen (other.ending.report.mapError .aborted)⟩
      rw [h.of_close hst hopen hended hj, hj]
      exact List.getElem?_concat_length
    · exact ⟨st, (List.getElem?_set_ne hij).trans hst, .refl st⟩

/-! ## Going to the end -/

/-- A search whose workers all go on, one step after the other. -/
theorem after_work {i : Nat} {st : Stream} (hst : t.streams[i]? = some st) (order : List Nat) :
    t.after (order.map (.work i))
      = { t with streams := t.streams.set i { st with
          run := st.run.after st.job (Search.Results.sink st.limit) order } } := by
  induction order generalizing t st with
  | nil =>
    obtain ⟨hlt, hget⟩ := List.getElem?_eq_some_iff.mp hst
    have hsame : t.streams.set i st = t.streams := by rw [← hget, List.set_getElem_self]
    rw [List.map_nil]
    exact congrArg (Traffic.mk t.service) hsame.symm
  | cons worker order ih =>
    have hstep : t.step (.work i worker)
        = { t with streams := t.streams.set i (st.work worker) } := by
      rw [step, hst]
    have hnext : (t.step (.work i worker)).streams[i]? = some (st.work worker) := by
      rw [hstep]
      exact List.getElem?_set_self (List.getElem?_eq_some_iff.mp hst).1
    rw [List.map_cons, after, List.foldl_cons]
    refine (ih hnext).trans ?_
    rw [hstep, List.set_set]
    rfl

theorem after_append (first later : List Event) :
    t.after (first ++ later) = (t.after first).after later :=
  List.foldl_append

theorem step_finish {i : Nat} {st : Stream} (hst : t.streams[i]? = some st)
    (hopen : st.outcome = none) (hover : st.isOver = true) :
    t.step (.finish i) = t.close i st := by
  rw [step, hst]
  dsimp only
  rw [hopen, hover]
  rfl

/-- **Every search can come to its end.** Its workers need only go on. -/
theorem exists_close {i : Nat} {st : Stream} (hst : t.streams[i]? = some st)
    (hopen : st.outcome = none) :
    ∃ order : List Nat, t.after (order.map (.work i) ++ [.finish i])
      = ({ t with streams := t.streams.set i st.worked } : Traffic).close i st.worked := by
  obtain ⟨order, horder⟩ :=
    st.run.exists_finish_eq_after st.job (Search.Results.sink st.limit)
  refine ⟨order, ?_⟩
  have hworked := after_work hst order
  rw [← horder] at hworked
  have hat : ({ t with streams := t.streams.set i st.worked } : Traffic).streams[i]?
      = some st.worked := List.getElem?_set_self (List.getElem?_eq_some_iff.mp hst).1
  have hover : st.worked.isOver = true := by
    rw [Stream.isOver, Bool.or_eq_true, List.all_eq_true]
    exact .inl fun w hw => Search.Run.isDone_of_mem_finishEach st.job _ hw
  rw [← step_finish hat hopen hover, after_append, hworked]
  rfl

/-- Then the slot is free. -/
theorem exists_free {i : Nat} {st : Stream} (hst : t.streams[i]? = some st)
    (hopen : st.outcome = none) :
    ∃ order : List Nat,
      (t.after (order.map (.work i) ++ [.finish i])).service.engine.isTaken = false := by
  obtain ⟨order, horder⟩ := exists_close hst hopen
  refine ⟨order, ?_⟩
  rw [horder, close, Search.Engine.complete_snd]

end Traffic

/-! ## Searches of the program -/

/-- **The program follows a history.** What becomes of the service when a search is asked for,
and the lines of the answer, are those behind some history in which the search comes to its end
before anything else happens. -/
theorem Traffic.exists_search_eq_after (t : Traffic) (m : Members) :
    ∃ history : List Event,
      ((t.post m).after history).service = (t.service.search m).2
        ∧ ∀ lines, (t.service.search m).1 = .ok lines →
          ∃ st, ((t.post m).after history).streams = t.streams ++ [st] ∧ st.outcome ≠ none
            ∧ st.lines = lines := by
  rcases hreceive : t.service.receive m with ⟨refusal | p, service⟩
  · refine ⟨[], ?_, ?_⟩
    · rw [search, post, hreceive]
      rfl
    · intro lines hlines
      rw [search, hreceive] at hlines
      cases hlines
  · have hpost : t.post m = { service, streams := t.streams ++ [.begin p service] } := by
      rw [post, hreceive]
    have hat : (t.post m).streams[t.streams.length]? = some (.begin p service) := by
      rw [hpost]
      exact List.getElem?_concat_length
    obtain ⟨order, horder⟩ := exists_close hat rfl
    -- the run of the program and the workers that go on come to the same ending
    have hrun : service.engine.search service.environment p.criteria p.maxResults true
        service.workspace.tasks
          = service.engine.complete (Stream.begin p service).worked.ending := by
      have hending := Stream.endingOf_finish (Stream.begin p service).job p.maxResults
        service.engine.signal service.workspace.tasks
      exact congrArg service.engine.complete hending.symm
    generalize hcomplete : service.engine.complete (Stream.begin p service).worked.ending = ended
      at hrun
    have hsearch : t.service.search m
        = (.ok (streamLines p.criteria.expression.keywords ended.1),
          { service with engine := ended.2 }) := by
      rw [search, hreceive]
      dsimp only
      rw [hrun]
    have hclose : (t.post m).after
        (order.map (.work t.streams.length) ++ [.finish t.streams.length])
          = { service := { service with engine := ended.2 }
              streams := t.streams ++ [(Stream.begin p service).worked.close ended.1] } := by
      rw [horder, hpost, close]
      dsimp only
      rw [hcomplete, List.set_set, List.set_append_right _ _ (Nat.le_refl _), Nat.sub_self,
        List.set_cons_zero]
    refine ⟨_, by rw [hclose, hsearch], fun lines hlines => ?_⟩
    rw [hsearch] at hlines
    rw [hclose]
    exact ⟨_, rfl, Option.some_ne_none _, Except.ok.inj hlines⟩

/-! ## What those who send requests can rely on -/

/-- What holds of the service and its streams, whatever has happened so far. -/
structure Traffic.Orderly (t : Traffic) : Prop where
  /-- The stream of a search that has ended reads as it should. If the search has a report, and
  none of the later ones has, then what it has found is remembered, and an export renders it. -/
  reads : ∀ (earlier : List Stream) (st : Stream) (later : List Stream)
      (outcome : Search.Outcome), t.streams = earlier ++ st :: later →
    st.outcome = some outcome →
      ∃ slices last, st.ReadsAs outcome slices last
        ∧ (∀ summary, outcome.report = .ok summary → (∀ other ∈ later, other.found? = none) →
          t.service.engine.lastResults = some outcome.results
            ∧ t.service.exportResults = .ok (.text (Export.text slices.flatten)))
  /-- The stream of a search that is on has no last line yet. -/
  readsOn : ∀ st ∈ t.streams, st.outcome = none →
    ∃ slices : List (List Record), st.lines = slices.map batchLine ∧ ∀ slice ∈ slices, slice ≠ []
  /-- Whatever happens next, all lines stay, and a search that has ended gets no more of them. -/
  goesOn : ∀ (event : Event) (i : Nat) (st : Stream), t.streams[i]? = some st →
    ∃ next : Stream, (t.step event).streams[i]? = some next ∧ st.lines <+: next.lines
      ∧ (st.outcome ≠ none → next.lines = st.lines ∧ next.outcome = st.outcome)
  /-- The slot is taken exactly while a search is on, which is then the last one. -/
  slot : (t.service.engine.isTaken = true ↔ ∃ st ∈ t.streams, st.outcome = none)
    ∧ ∀ (i : Nat) (st : Stream), t.streams[i]? = some st → st.outcome = none →
      i + 1 = t.streams.length
  /-- When a search gets its last line, the slot is free. -/
  ends : ∀ (i : Nat) (st : Stream), t.streams[i]? = some st → st.outcome = none →
    st.isOver = true →
      (t.step (.finish i)).service.engine.isTaken = false
        ∧ ∃ next : Stream, (t.step (.finish i)).streams[i]? = some next ∧ next.outcome ≠ none
  /-- A search that is on comes there if its workers go on, whether or not anyone reads. -/
  comesToEnd : ∀ (i : Nat) (st : Stream), t.streams[i]? = some st → st.outcome = none →
    ∃ order : List Nat,
      (t.after (order.map (.work i) ++ [.finish i])).service.engine.isTaken = false
  /-- A search that is in order is taken in if all others have ended, and is refused as long as
  one is on. -/
  admits : ∀ m p, readSearch t.service.engine.settings m = .ok p →
    t.service.workspace.hasSources = true →
      ((∀ st ∈ t.streams, st.outcome ≠ none) → (t.service.receive m).1 = .ok p)
        ∧ ((∃ st ∈ t.streams, st.outcome = none) →
          (t.service.receive m).1 = .error (.denied 409 "A search is already running"))
  /-- A refused search changes nothing. -/
  refuses : ∀ m refusal, (t.service.receive m).1 = .error refusal → t.post m = t
  /-- What is remembered changes only when a search ends. -/
  keeps : ∀ event, (∀ i, event ≠ .finish i) →
    (t.step event).service.engine.lastResults = t.service.engine.lastResults

namespace Traffic

variable {t : Traffic}

theorem Sound.isTaken_iff (h : t.Sound) :
    t.service.engine.isTaken = true ↔ ∃ st ∈ t.streams, st.outcome = none := by
  refine ⟨h.taken, ?_⟩
  rintro ⟨st, hst, hopen⟩
  obtain ⟨i, hi⟩ := List.getElem?_of_mem hst
  exact (h.latest i st hi hopen).2.1

/-- What the last search with a report has found is what is remembered. -/
theorem Sound.lastResults_eq (h : t.Sound) {earlier later : List Stream} {st : Stream}
    {results : Search.Results} (hstreams : t.streams = earlier ++ st :: later)
    (hfound : st.found? = some results) (hlater : ∀ other ∈ later, other.found? = none) :
    t.service.engine.lastResults = some results := by
  have hnone : later.filterMap Stream.found? = [] := List.filterMap_eq_nil_iff.mpr hlater
  rw [h.remembered, hstreams, List.filterMap_append, List.filterMap_cons, hfound, hnone,
    List.getLast?_append, List.getLast?_singleton, Option.some_or]

theorem lastResults_step (event : Event) (hevent : ∀ i, event ≠ .finish i) :
    (t.step event).service.engine.lastResults = t.service.engine.lastResults := by
  obtain ⟨next, hstep, hmakes⟩ := t.step_cases event
  rw [hstep]
  cases hmakes with
  | heeded hengine =>
    rw [heed]
    rcases hengine with hsame | hcancel
    · rw [hsame]
    · rw [hcancel, Search.Engine.cancel_snd]
  | closed => exact absurd rfl (hevent _)
  | _ => rfl

theorem Sound.orderly (h : t.Sound) : t.Orderly where
  reads := by
    intro earlier st later outcome hstreams hended
    have hst : st ∈ t.streams := hstreams ▸ List.mem_append_right _ List.mem_cons_self
    obtain ⟨last, hreads⟩ := (h.tidy st hst).exists_readsAs hended
    refine ⟨_, last, hreads, fun summary hreport hlater => ?_⟩
    have hfound : st.found? = some outcome.results := by
      rw [Stream.found?, hended]
      obtain ⟨results, report⟩ := outcome
      subst hreport
      rfl
    have hlast := h.lastResults_eq hstreams hfound hlater
    refine ⟨hlast, ?_⟩
    rw [exportResults, hlast, ((h.tidy st hst).outcome outcome hended).flatten]
  readsOn := by
    intro st hst hopen
    refine ⟨st.results.deliveries.toList, ?_, (h.tidy st hst).results.whole⟩
    rw [Stream.lines, hopen]
  goesOn := by
    intro event i st hst
    obtain ⟨next, hnext, hgoesOn⟩ := h.exists_goesOn event hst
    exact ⟨next, hnext, hgoesOn.grows, hgoesOn.stays⟩
  slot := ⟨h.isTaken_iff, fun i st hst hopen => (h.latest i st hst hopen).1⟩
  ends := by
    intro i st hst hopen hover
    obtain ⟨ended, hended, hi, -⟩ := h.exists_append hst hopen
    rw [step_finish hst hopen hover, h.of_close hst hopen hended hi]
    refine ⟨rfl, st.close ⟨st.results, st.ending.report.mapError .aborted⟩, ?_,
      Option.some_ne_none _⟩
    rw [hi]
    exact List.getElem?_concat_length
  comesToEnd := fun _ _ hst hopen => exists_free hst hopen
  admits := by
    intro m p hread hsources
    rw [receive_of_valid hread hsources]
    refine ⟨fun hall => ?_, fun hsome => ?_⟩
    · have hfree : t.service.engine.isTaken = false := by
        rw [← Bool.not_eq_true, h.isTaken_iff]
        rintro ⟨st, hst, hopen⟩
        exact hall st hst hopen
      rw [Search.Engine.acquire_of_free hfree]
    · rw [Search.Engine.acquire_of_isTaken (h.isTaken_iff.mpr hsome)]
      rfl
  refuses := fun _ _ hrefused => post_of_refused hrefused
  keeps := fun event hevent => lastResults_step event hevent

/-- **The service and its streams.** Let a service begin with any settings, surroundings and
sources, and let requests come in, searches go on and end, properly or not, and readers go away,
in any order. Then every stream that is read to its end has some slices and one last line, the
slices behind a report are what is remembered and exported, the slot is free when the last line is
out, and what is refused leaves all as it is. -/
theorem orderly_after (environment : Environment) (remote : Settings.Remote)
    (settings : Settings.Engine) (workspace : Workspace) (history : List Event) :
    (({ service := { environment, remote, engine := { settings }, workspace } } : Traffic).after
      history).Orderly :=
  ((sound_fresh _ rfl rfl).after history).orderly

end Traffic

end LogSearch.Service
