/-
Searches under any schedule.

A schedule is the list of the workers that make the steps, by their numbers. Every
state that a search can get to is the state after some schedule, so what holds after
all of them holds whatever the rules leave open. `exists_finish_eq_after` ties this to
the program: letting one worker after the other go to its end is one of them.

What a worker does at a step matters to the others only when it hands over. At all
other steps the results stay as they are, and `Worker.step_quiet` says what else can
happen: it stands where it stood in its share, it skips a log that cannot be read, or
it gives up because the signal is up. For this it is enough to know how a worker stands
in its share (`Worker.Stands`) and how many logs are ahead of it (`Worker.ahead`).
-/
import LogSearch.Proofs.Search.Shares
import LogSearch.Proofs.Search.Solo
import LogSearch.Search.Run

set_option autoImplicit false

namespace LogSearch.Search

/-! ## Schedules -/

namespace Run

variable {σ : Type} (job : Job) (sink : Sink σ)

/-- Lets the worker of some number make a step, if there is one. -/
def stepAt (run : Run σ) (i : Nat) : Run σ :=
  match run.workers[i]? with
  | none => run
  | some w => ⟨run.workers.set i (w.step job sink run.progress).1, (w.step job sink run.progress).2⟩

/-- Lets workers make their steps in some order. -/
def after (run : Run σ) (order : List Nat) : Run σ :=
  order.foldl (stepAt job sink) run

variable {job sink} {run : Run σ}

theorem stepAt_none {i : Nat} (h : run.workers[i]? = none) : run.stepAt job sink i = run := by
  rw [stepAt, h]

theorem stepAt_some {i : Nat} {w : Worker} (h : run.workers[i]? = some w) :
    run.stepAt job sink i
      = ⟨run.workers.set i (w.step job sink run.progress).1,
        (w.step job sink run.progress).2⟩ := by
  rw [stepAt, h]

theorem after_append (first later : List Nat) :
    run.after job sink (first ++ later) = (run.after job sink first).after job sink later := by
  rw [after, after, after, List.foldl_append]

end Run

/-! ## Going all the way -/

section Finish

variable {σ : Type} (job : Job) (sink : Sink σ)

/-- A worker goes on alone until it is done. -/
theorem Worker.isDone_run (w : Worker) (p : Progress σ) :
    (w.run job sink p).1.isDone = true := by
  induction w, p using Worker.run.induct job sink with
  | case1 w p hdone => rwa [run_of_isDone job sink p hdone]
  | case2 w p hdone next ih => rwa [run_eq_step job sink p (Bool.eq_false_iff.mpr hdone)]

/-- That a worker goes on alone until it is done is one way in which a search can go on. -/
theorem Worker.exists_run_eq_after (w : Worker) (p : Progress σ) (i : Nat) :
    ∀ ws : List Worker, ws[i]? = some w →
      ∃ order, (⟨ws, p⟩ : Run σ).after job sink order
        = ⟨ws.set i (w.run job sink p).1, (w.run job sink p).2⟩ := by
  -- the induction is the worker's own recursion
  induction w, p using Worker.run.induct job sink with
  | case1 w p hdone =>
    intro ws h
    obtain ⟨hi, hw⟩ := List.getElem?_eq_some_iff.mp h
    refine ⟨[], ?_⟩
    rw [run_of_isDone job sink p hdone, ← hw, List.set_getElem_self]
    rfl
  | case2 w p hdone next ih =>
    intro ws h
    obtain ⟨hi, -⟩ := List.getElem?_eq_some_iff.mp h
    obtain ⟨order, horder⟩ := ih (ws.set i next.1) (List.getElem?_set_self hi)
    refine ⟨i :: order, ?_⟩
    rw [run_eq_step job sink p (Bool.eq_false_iff.mpr hdone), Run.after, List.foldl_cons,
      Run.stepAt_some h]
    rw [List.set_set] at horder
    exact horder

theorem Run.exists_finishEach_eq_after (gone ws : List Worker) (p : Progress σ) :
    ∃ order, (⟨gone ++ ws, p⟩ : Run σ).after job sink order
      = ⟨gone ++ (finishEach job sink ws p).1, (finishEach job sink ws p).2⟩ := by
  induction ws generalizing gone p with
  | nil => exact ⟨[], rfl⟩
  | cons w ws ih =>
    have hw : (gone ++ w :: ws)[gone.length]? = some w := by
      rw [List.getElem?_append_right (Nat.le_refl _), Nat.sub_self, List.getElem?_cons_zero]
    obtain ⟨first, hfirst⟩ := w.exists_run_eq_after job sink p gone.length _ hw
    obtain ⟨later, hlater⟩ := ih (gone ++ [(w.run job sink p).1]) (w.run job sink p).2
    refine ⟨first ++ later, ?_⟩
    rw [after_append, hfirst, List.set_append_right _ _ (Nat.le_refl _), Nat.sub_self,
      List.set_cons_zero, finishEach]
    rw [List.append_assoc, List.append_assoc] at hlater
    exact hlater

/-- **The program follows a schedule.** Letting one worker after the other go to its end is
one of the orders in which they can make their steps. -/
theorem Run.exists_finish_eq_after (run : Run σ) :
    ∃ order, run.finish job sink = run.after job sink order := by
  obtain ⟨order, horder⟩ := exists_finishEach_eq_after job sink [] run.workers run.progress
  exact ⟨order, horder.symm⟩

theorem Run.isDone_of_mem_finishEach {ws : List Worker} {p : Progress σ} {w : Worker}
    (h : w ∈ (finishEach job sink ws p).1) : w.isDone = true := by
  induction ws generalizing p with
  | nil => cases h
  | cons first ws ih =>
    rcases List.mem_cons.mp h with rfl | h
    · exact first.isDone_run job sink p
    · exact ih h

end Finish

/-! ## Shares -/

/-- The number of logs in the first shares up to and including the `i`-th. -/
def shareEnd (shs : List (List Task)) (i : Nat) : Nat :=
  (shs.take (i + 1)).flatten.length

section ShareEnd

variable {shs : List (List Task)} {i : Nat} {share : List Task}

theorem shareEnd_eq (h : shs[i]? = some share) :
    shareEnd shs i = (shs.take i).flatten.length + share.length := by
  rw [shareEnd, List.take_add_one, h, Option.toList_some, List.flatten_append,
    List.flatten_singleton, List.length_append]

theorem flatten_eq (h : shs[i]? = some share) :
    shs.flatten = (shs.take i).flatten ++ share ++ (shs.drop (i + 1)).flatten := by
  obtain ⟨hi, hshare⟩ := List.getElem?_eq_some_iff.mp h
  have hsplit : shs = shs.take i ++ share :: shs.drop (i + 1) := by
    rw [← hshare, ← List.drop_eq_getElem_cons hi, List.take_append_drop]
  conv => lhs; rw [hsplit]
  rw [List.flatten_append, List.flatten_cons, List.append_assoc]

/-- Shares do not overlap. -/
theorem shareEnd_add_length_le {j : Nat} (hlt : i < j) (h : shs[j]? = some share) :
    shareEnd shs i + share.length ≤ shareEnd shs j := by
  obtain ⟨between, hbetween⟩ : shs.take (i + 1) <+: shs.take j := List.take_prefix_take_left hlt
  rw [shareEnd_eq h, shareEnd, ← hbetween, List.flatten_append, List.length_append]
  omega

/-- Where the log is that so many others are behind in its share. -/
theorem getElem?_of_isSuffix {task : Task} {tasks : List Task} (h : shs[i]? = some share)
    (hsuffix : task :: tasks <:+ share) :
    shs.flatten[shareEnd shs i - 1 - tasks.length]? = some task := by
  obtain ⟨gone, rfl⟩ := hsuffix
  have hindex : shareEnd shs i - 1 - tasks.length = ((shs.take i).flatten ++ gone).length := by
    rw [shareEnd_eq h, List.length_append, List.length_append, List.length_cons]
    omega
  rw [flatten_eq h, hindex, List.append_assoc, List.append_assoc, ← List.append_assoc,
    List.getElem?_append_right (Nat.le_refl _), Nat.sub_self, List.cons_append,
    List.getElem?_cons_zero]

end ShareEnd

/-! ## Where a worker stands -/

/-- The number of logs of its share that a worker may still hand over. -/
def Worker.ahead : Worker → Nat
  | ready tasks => tasks.length
  | scanning _ _ tasks => tasks.length + 1
  | holding _ _ tasks => tasks.length + 1
  | behind tasks => tasks.length
  | finished => 0
  | broken _ => 0

/-- How a worker stands in its share: what it has begun and what lies ahead is the end of the
share, a scan waits at a checkpoint of its log, and a haul holds first matches of its log. It
is the whole haul unless the signal is up. -/
def Worker.Stands (job : Job) (share : List Task) (isUp : Bool) : Worker → Prop
  | ready tasks => tasks <:+ share
  | scanning _ scan tasks => ∃ task text fed, task :: tasks <:+ share
      ∧ task.resolve job.environment.hasZstd = .ok text ∧ fed ∈ job.checkpoints task text
      ∧ scan = job.scanAt task text fed
  | holding _ haul tasks => ∃ task text, task :: tasks <:+ share
      ∧ task.resolve job.environment.hasZstd = .ok text
      ∧ haul.records.toList <+: job.matchesOf task
      ∧ (isUp = false → haul = job.haulOf task text)
  | behind tasks => tasks <:+ share
  | finished => True
  | broken _ => False

section Stands

variable {job : Job} {share : List Task} {isUp : Bool}

theorem Worker.Stands.ahead_le {w : Worker} (h : w.Stands job share isUp) :
    w.ahead ≤ share.length := by
  rcases w with tasks | ⟨source, scan, tasks⟩ | ⟨source, haul, tasks⟩ | tasks | _ | a
  · exact List.IsSuffix.length_le h
  · obtain ⟨task, text, fed, hsuffix, -⟩ := h
    exact hsuffix.length_le
  · obtain ⟨task, text, hsuffix, -⟩ := h
    exact hsuffix.length_le
  · exact List.IsSuffix.length_le h
  · exact Nat.zero_le _
  · exact Nat.zero_le _

/-- A worker does not stand elsewhere because others put up the signal. -/
theorem Worker.Stands.of_isUp {w : Worker} (h : w.Stands job share isUp) :
    w.Stands job share true := by
  rcases w with tasks | ⟨source, scan, tasks⟩ | ⟨source, haul, tasks⟩ | tasks | _ | a
  · exact h
  · exact h
  · obtain ⟨task, text, hsuffix, hresolve, hprefix, -⟩ := h
    exact ⟨task, text, hsuffix, hresolve, hprefix, fun hdown => by cases hdown⟩
  · exact h
  · trivial
  · exact h

/-- A scan that goes on from some line waits at the next checkpoint, or has its haul. -/
theorem Worker.stands_ofStop {task : Task} {tasks : List Task} {text : String}
    (hsuffix : task :: tasks <:+ share)
    (hresolve : task.resolve job.environment.hasZstd = .ok text) (source : String) (fed : Nat) :
    (ofStop source tasks
      (job.stopOf task text (job.checkpointsFrom task text fed))).Stands job share isUp
    ∧ (ofStop source tasks
      (job.stopOf task text (job.checkpointsFrom task text fed))).ahead = tasks.length + 1 := by
  rcases hlooks : job.checkpointsFrom task text fed with _ | ⟨next, looks⟩
  · refine ⟨⟨task, text, hsuffix, hresolve, ?_, fun _ => rfl⟩, rfl⟩
    rw [Job.matchesOf_of_resolve hresolve]
    exact List.take_prefix _ _
  · obtain ⟨hlt, hat, -⟩ := job.of_checkpointsFrom_eq_cons task text hlooks
    exact ⟨⟨task, text, next, hsuffix, hresolve, Job.mem_checkpoints.mpr ⟨hlt, hat⟩, rfl⟩, rfl⟩

end Stands

/-! ## What a step can be -/

/-- Whether nothing that the results depend on has changed, and nothing outside calls the
search off. -/
structure Progress.Quiet {σ : Type} (p q : Progress σ) : Prop where
  sink : q.sink = p.sink
  isFull : q.isFull = p.isFull
  isUp : q.signal.isUp = p.signal.isUp
  raisedAt : q.signal.raisedAt = none

/-- What becomes of the logs ahead of a worker at a step at which it hands over nothing. -/
inductive Worker.Moves (job : Job) (share : List Task) (isUp : Bool) (w next : Worker) : Prop
  | stays (h : next.ahead = w.ahead)
  | skips (task : Task) (tasks : List Task) (suffix : task :: tasks <:+ share)
      (start : w.ahead = tasks.length + 1) (stop : next.ahead = tasks.length)
      (empty : job.matchesOf task = [])
  | givesUp (up : isUp = true) (stop : next.ahead = 0)

section StepCases

variable {σ : Type} {job : Job} {share : List Task} {w : Worker}

/-- A look while nothing outside calls the search off. -/
theorem Progress.look_of_raisedAt {p : Progress σ} (hraised : p.signal.raisedAt = none) :
    p.look = (p.signal.isUp, p.wait 1) := by
  rw [look, Signal.look, wait, Signal.wait, hraised]
  simp only [Option.any_none, Bool.or_false]

/-- **A step without a hand-over.** It leaves the results as they are, and the worker stands
as it should. -/
theorem Worker.step_quiet (sink : Sink σ) {p : Progress σ}
    (paced : 1 ≤ job.settings.taskBatchSize) (hraised : p.signal.raisedAt = none)
    (h : w.Stands job share p.signal.isUp)
    (hnot : ∀ source haul tasks, w ≠ holding source haul tasks) :
    p.Quiet (w.step job sink p).2
      ∧ (w.step job sink p).1.Stands job share p.signal.isUp
      ∧ Moves job share p.signal.isUp w (w.step job sink p).1 := by
  obtain ⟨next, q, hstep, hmakes⟩ := w.step_cases job sink p
  have hlook := Progress.look_of_raisedAt hraised
  have hquiet : p.Quiet (p.wait 1) := ⟨rfl, rfl, rfl, hraised⟩
  have hrests : p.Quiet p := ⟨rfl, rfl, rfl, hraised⟩
  rw [hstep]
  cases hmakes with
  | ends => exact ⟨hrests, trivial, .stays rfl⟩
  | stops hup =>
    rw [hlook] at hup ⊢
    exact ⟨hquiet, trivial, .givesUp hup rfl⟩
  | @skips task tasks e _ hresolve =>
    rw [hlook]
    have hrest : tasks <:+ share := (List.suffix_cons task tasks).trans h
    exact ⟨⟨rfl, rfl, rfl, hraised⟩, hrest,
      .skips task tasks h rfl rfl (Job.matchesOf_of_error hresolve)⟩
  | @starts task tasks text _ hresolve =>
    obtain ⟨hstands, hahead⟩ := stands_ofStop h hresolve task.source 0
    rw [hlook, job.start_eq, Job.checkpoints]
    exact ⟨hquiet, hstands, .stays hahead⟩
  | cuts hup =>
    obtain ⟨task, text, fed, hsuffix, hresolve, hfed, rfl⟩ := h
    rw [hlook] at hup ⊢
    -- what was found up to here are first matches, if not all that are kept
    refine ⟨hquiet, ⟨task, text, hsuffix, hresolve, ?_, ?_⟩, .stays rfl⟩
    · exact (Job.foundAfter_isPrefix_keptOf hresolve hfed).trans (List.take_prefix _ _)
    · exact fun hdown => absurd (hdown.symm.trans hup) Bool.false_ne_true
  | @resumes source scan tasks _ =>
    obtain ⟨task, text, fed, hsuffix, hresolve, hfed, rfl⟩ := h
    obtain ⟨hlt, hat⟩ := Job.mem_checkpoints.mp hfed
    obtain ⟨hstands, hahead⟩ := stands_ofStop hsuffix hresolve source (fed + 1)
    rw [hlook, job.resume_scanAt task text hlt hat.2]
    exact ⟨hquiet, hstands, .stays hahead⟩
  | handsOver => exact absurd rfl (hnot _ _ _)
  | leaves hup =>
    rw [hlook] at hup ⊢
    exact ⟨hquiet, trivial, .givesUp hup rfl⟩
  | breaks _ hsize => omega
  | goesOn =>
    rw [hlook]
    exact ⟨hquiet, h, .stays rfl⟩
  | rests => exact ⟨hrests, trivial, .stays rfl⟩
  | fails => exact absurd h id

end StepCases

end LogSearch.Search
