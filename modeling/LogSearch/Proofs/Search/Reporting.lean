/-
Searches that come to a report.

Nothing stops a search half-way but a worker that breaks off, and there is one place only where a
worker can. Behind a log that was handed over, with the signal down, it counts how many logs it
still has to go to its next pause, and that has no meaning where the number of logs from one pause
to the next is zero (`Worker.isBroken_step_iff`). All other settings may have any value. The share
of a worker is never empty, and its checkpoints are at least one line apart.

So in any order of steps, a search breaks off exactly if that setting is zero and some worker comes
to this place (`Run.abort?_after_iff`). For the order that the program follows this can be told
from the logs: what counts is the first of them that can be read (`Breaks`). By then its records
have been passed on.
-/
import LogSearch.Proofs.Search.Accounting
import Mathlib

set_option autoImplicit false

namespace LogSearch.Search

/-! ## Where a search breaks off -/

section Steps

variable {σ : Type} (job : Job) (sink : Sink σ)

/-- Whether a worker stands behind a log and finds the signal down. This is where it counts how
many logs it still has to go to its next pause. -/
def Worker.Counts : Worker → Progress σ → Prop
  | behind _, p => p.look.1 = false
  | _, _ => False

/-- **One step.** A worker breaks off where it counts the logs up to a pause, if there is no
number of logs from one pause to the next. -/
theorem Worker.isBroken_step_iff (w : Worker) (p : Progress σ) :
    (w.step job sink p).1.isBroken = true
      ↔ w.isBroken = true ∨ job.settings.taskBatchSize = 0 ∧ w.Counts p := by
  -- only the two kinds of steps behind a log, with the signal down, do not end here
  have elsewhere {w next : Worker} (hnext : next.isBroken = false) (hw : w.isBroken = false)
      (hplace : ¬ w.Counts p) : next.isBroken = true
        ↔ w.isBroken = true ∨ job.settings.taskBatchSize = 0 ∧ w.Counts p := by
    rw [hnext, hw]
    exact iff_of_false Bool.false_ne_true fun h => h.elim Bool.false_ne_true fun h => hplace h.2
  obtain ⟨next, q, hstep, hmakes⟩ := w.step_cases job sink p
  rw [hstep]
  cases hmakes with
  | starts | resumes => exact elsewhere (isBroken_ofStop _ _ _) rfl id
  | leaves hup => exact elsewhere rfl rfl fun h => Bool.false_ne_true (h.symm.trans hup)
  | breaks hdown hsize => exact iff_of_true rfl (.inr ⟨hsize, hdown⟩)
  | goesOn _ hsize =>
    exact iff_of_false Bool.false_ne_true fun h => h.elim Bool.false_ne_true fun h => hsize h.1
  | fails => exact iff_of_true rfl (.inl rfl)
  | _ => exact elsewhere rfl rfl id

/-- Whether the worker of some number counts the logs up to a pause at its next step. -/
def Run.Counts (run : Run σ) (i : Nat) : Prop :=
  ∃ w, run.workers[i]? = some w ∧ w.Counts run.progress

theorem Run.abort?_isSome_iff {run : Run σ} :
    run.abort?.isSome = true ↔ ∃ w ∈ run.workers, w.isBroken = true := by
  rw [abort?, List.findSome?_isSome_iff]
  refine exists_congr fun w => and_congr_right fun _ => ?_
  cases w <;> exact Iff.rfl

/-- Whichever worker makes the step, the others stay whole or broken as they were. -/
theorem Run.abort?_stepAt_iff (run : Run σ) (i : Nat) :
    (run.stepAt job sink i).abort?.isSome = true
      ↔ run.abort?.isSome = true ∨ job.settings.taskBatchSize = 0 ∧ run.Counts i := by
  rw [abort?_isSome_iff, abort?_isSome_iff]
  cases hw : run.workers[i]? with
  | none =>
    have hno : ¬ run.Counts i := by
      rintro ⟨w, hsome, -⟩
      rw [hw] at hsome
      cases hsome
    rw [stepAt_none hw]
    simp only [hno, and_false, or_false]
  | some w =>
    have hcounts : run.Counts i ↔ w.Counts run.progress := by
      rw [Counts, hw]
      exact ⟨fun ⟨v, hv, h⟩ => Option.some.inj hv ▸ h, fun h => ⟨w, rfl, h⟩⟩
    have hi : i < run.workers.length := (List.getElem?_eq_some_iff.mp hw).1
    have hstep := w.isBroken_step_iff job sink run.progress
    rw [stepAt_some hw, hcounts]
    dsimp only
    -- a worker that is broken behind the step was so before, or has made the step
    constructor
    · rintro ⟨v, hv, hbroken⟩
      rcases List.mem_or_eq_of_mem_set hv with hv | rfl
      · exact .inl ⟨v, hv, hbroken⟩
      · exact (hstep.mp hbroken).imp (fun h => ⟨w, List.mem_of_getElem? hw, h⟩) id
    · rintro (⟨v, hv, hbroken⟩ | hbreaks)
      · obtain ⟨j, hj⟩ := List.mem_iff_getElem?.mp hv
        by_cases hij : i = j
        · subst hij
          obtain rfl := Option.some.inj (hw.symm.trans hj)
          exact ⟨_, List.mem_set hi _, hstep.mpr (.inl hbroken)⟩
        · refine ⟨v, List.mem_iff_getElem?.mpr ⟨j, ?_⟩, hbroken⟩
          rw [List.getElem?_set_ne hij]
          exact hj
      · exact ⟨_, List.mem_set hi _, hstep.mpr (.inr hbreaks)⟩

/-- **Any order.** A search breaks off exactly if there is no number of logs from one pause to the
next and, at some step, a worker counts the logs up to its next pause. -/
theorem Run.abort?_after_iff (run : Run σ) (order : List Nat) :
    (run.after job sink order).abort?.isSome = true
      ↔ run.abort?.isSome = true ∨ job.settings.taskBatchSize = 0
        ∧ ∃ first i later, order = first ++ i :: later
          ∧ (run.after job sink first).Counts i := by
  induction order generalizing run with
  | nil =>
    have hno (P : List Nat → Nat → Prop) :
        ¬ ∃ first i later, ([] : List Nat) = first ++ i :: later ∧ P first i := by
      rintro ⟨first, i, later, h, -⟩
      cases first <;> cases h
    simp only [hno, and_false, or_false]
    rfl
  | cons i order ih =>
    -- the first step is one of the order, or it is in front of those of the rest
    have hsplit : (∃ first j later, i :: order = first ++ j :: later
          ∧ (run.after job sink first).Counts j)
        ↔ run.Counts i ∨ ∃ first j later, order = first ++ j :: later
          ∧ ((run.stepAt job sink i).after job sink first).Counts j := by
      constructor
      · rintro ⟨_ | ⟨k, first⟩, j, later, h, hcounts⟩
        · cases h
          exact .inl hcounts
        · cases h
          exact .inr ⟨first, j, later, rfl, hcounts⟩
      · rintro (hcounts | ⟨first, j, later, rfl, hcounts⟩)
        · exact ⟨[], i, order, rfl, hcounts⟩
        · exact ⟨i :: first, j, later, rfl, hcounts⟩
    have hafter : run.after job sink (i :: order) = (run.stepAt job sink i).after job sink order :=
      rfl
    rw [hafter, ih, abort?_stepAt_iff, hsplit, and_or_left, or_assoc]

end Steps

/-! ## The order that the program follows -/

/-- Whether some logs make a search break off where there is no number of logs from one pause to
the next. The first log that can be read does so, if the signal stays down for all looks up to the
one behind it: one for each log in front, one in front of the log itself, its checkpoints, and the
last one. In particular the sink must not be full with what this log hands over. -/
def Breaks {σ : Type} (job : Job) (sink : Sink σ) (tasks : List Task) (signal : Signal)
    (state : σ) : Prop :=
  ∃ gone task later text, tasks = gone ++ task :: later
    ∧ (∀ unread ∈ gone, ∃ e, unread.resolve job.environment.hasZstd = .error e)
    ∧ task.resolve job.environment.hasZstd = .ok text
    ∧ signal.ClearFor (gone.length + 1 + (job.checkpoints task text).length + 1)
    ∧ (job.keptOf task ≠ [] → (sink.accept (job.keptOf task) state).1 = false)

section Program

variable {σ : Type} {job : Job} {sink : Sink σ} {task : Task} {tasks : List Task}
  {signal : Signal} {state : σ} {p : Progress σ}

theorem not_breaks_nil : ¬ Breaks job sink [] signal state := by
  rintro ⟨gone, task, later, text, h, -⟩
  cases gone <;> cases h

theorem breaks_cons_error {e : Payload.Error}
    (he : task.resolve job.environment.hasZstd = .error e) :
    Breaks job sink (task :: tasks) signal state ↔ Breaks job sink tasks (signal.wait 1) state := by
  constructor
  · rintro ⟨gone, read, later, text, h, hgone, hread, hclear, hroom⟩
    cases gone with
    | nil =>
      cases h
      rw [he] at hread
      cases hread
    | cons first gone =>
      cases h
      refine ⟨gone, read, later, text, rfl, fun t ht => hgone t (List.mem_cons_of_mem _ ht), hread,
        ?_, hroom⟩
      refine Signal.ClearFor.wait (hclear.mono ?_)
      rw [List.length_cons]
      omega
  · rintro ⟨gone, read, later, text, rfl, hgone, hread, hclear, hroom⟩
    refine ⟨task :: gone, read, later, text, rfl, ?_, hread, ?_, hroom⟩
    · rw [List.forall_mem_cons]
      exact ⟨⟨e, he⟩, hgone⟩
    · refine (Signal.ClearFor.of_wait hclear).mono ?_
      rw [List.length_cons]
      omega

theorem breaks_cons_ok {text : String} (ht : task.resolve job.environment.hasZstd = .ok text) :
    Breaks job sink (task :: tasks) signal state
      ↔ signal.ClearFor (1 + (job.checkpoints task text).length + 1)
        ∧ (job.keptOf task ≠ [] → (sink.accept (job.keptOf task) state).1 = false) := by
  constructor
  · rintro ⟨gone, read, later, text', h, hgone, hread, hclear, hroom⟩
    cases gone with
    | nil =>
      cases h
      obtain rfl : text = text' := Except.ok.inj (ht.symm.trans hread)
      rw [List.length_nil, Nat.zero_add] at hclear
      exact ⟨hclear, hroom⟩
    | cons first gone =>
      cases h
      obtain ⟨e, he⟩ := hgone task List.mem_cons_self
      rw [ht] at he
      cases he
  · rintro ⟨hclear, hroom⟩
    refine ⟨[], task, tasks, text, rfl, nofun, ht, ?_, hroom⟩
    rwa [List.length_nil, Nat.zero_add]

/-- A search that breaks off has found the signal down at its first look. -/
theorem Breaks.clearFor_one (h : Breaks job sink tasks signal state) : signal.ClearFor 1 := by
  obtain ⟨gone, task, later, text, -, -, -, hclear, -⟩ := h
  exact hclear.mono (by omega)

theorem Signal.not_clearFor_of_isUp {s : Signal} (hup : s.isUp = true) (n : Nat) :
    ¬ s.ClearFor n := by
  intro h
  rw [h.1] at hup
  cases hup

/-- A haul leaves the signal down unless the sink is full with it. -/
theorem Progress.clearFor_handOver_iff (source : String) (haul : Haul) (n : Nat) :
    (p.handOver sink source haul).signal.ClearFor n ↔ p.signal.ClearFor n
      ∧ (haul.records.toList ≠ [] → (sink.accept haul.records.toList p.sink).1 = false) := by
  have hempty : haul.records.isEmpty = true ↔ haul.records.toList = [] := by simp
  rw [handOver, deliver]
  by_cases hnil : haul.records.toList = []
  · rw [if_pos (hempty.mpr hnil)]
    simp [hnil]
  · rw [if_neg (mt hempty.mp hnil)]
    cases hfull : (sink.accept haul.records.toList p.sink).1 with
    | true =>
      have hup : ¬ p.signal.raise.ClearFor n := Signal.not_clearFor_of_isUp rfl n
      simp [hfull, hup, hnil]
    | false => simp [hfull]

/-- How a worker leaves its share where there is no number of logs from one pause to the next, with
the logs `more` behind the share. -/
inductive Worker.EndsUnpaced (job : Job) (sink : Sink σ) (share more : List Task) (p : Progress σ)
    (left : Worker × Progress σ) : Prop
  /-- It breaks off. -/
  | broken (hbroken : left.1.isBroken = true)
      (h : Breaks job sink (share ++ more) p.signal p.sink)
  /-- It finds the signal up, and so will all others. -/
  | stopped (hend : left.1 = finished) (hup : left.2.signal.isUp = true)
      (h : ¬ Breaks job sink (share ++ more) p.signal p.sink)
  /-- It has found no log that can be read. -/
  | passed (hend : left.1 = finished) (h : Breaks job sink (share ++ more) p.signal p.sink
      ↔ Breaks job sink more left.2.signal left.2.sink)

/-- A signal that does not stay down goes up at some look. -/
theorem Signal.exists_clearFor_of_not {s : Signal} {n : Nat} (hzero : s.ClearFor 0)
    (h : ¬ s.ClearFor n) : ∃ i, i < n ∧ s.ClearFor i ∧ ¬ s.ClearFor (i + 1) := by
  induction n with
  | zero => exact (h hzero).elim
  | succ n ih =>
    by_cases hclear : s.ClearFor n
    · exact ⟨n, Nat.lt_succ_self n, hclear, h⟩
    · obtain ⟨i, hi, hstep⟩ := ih hclear
      exact ⟨i, Nat.lt_succ_of_lt hi, hstep⟩

/-- Behind a log, with the signal down, a worker breaks off. -/
theorem Worker.run_behind_unpaced (unpaced : job.settings.taskBatchSize = 0) (tasks : List Task)
    (h : p.signal.ClearFor 1) :
    (behind tasks).run job sink p = (broken .noBatchSize, p.wait 1) := by
  have hlook := Progress.look_of_clear h
  have hdown : p.look.1 = false := congrArg Prod.fst hlook
  rw [run_eq_step job sink p rfl, (Makes.breaks hdown unpaced).step_eq, hlook,
    run_of_isDone job sink _ rfl]

/-- The first log that can be read decides: the signal goes up in front of the end of the log, or
behind it, or not at all. -/
theorem Worker.endsUnpaced_of_readable (unpaced : job.settings.taskBatchSize = 0) (more : List Task)
    {text : String} (hfront : p.signal.ClearFor 1)
    (ht : task.resolve job.environment.hasZstd = .ok text) :
    EndsUnpaced job sink (task :: tasks) more p ((ready (task :: tasks)).run job sink p) := by
  have hbreaks : Breaks job sink (task :: tasks ++ more) p.signal p.sink
      ↔ p.signal.ClearFor (1 + (job.checkpoints task text).length + 1)
        ∧ (job.keptOf task ≠ [] → (sink.accept (job.keptOf task) p.sink).1 = false) :=
    breaks_cons_ok ht
  rw [run_ready_ok job sink hfront ht]
  by_cases hscan : (p.wait 1).signal.ClearFor (job.checkpoints task text).length
  · rw [run_start_clear job sink task text tasks hscan, run_holding, Progress.wait_wait]
    -- the signal behind the log, in terms of the signal and the sink in front of it
    have hbehind : ((p.wait (1 + (job.checkpoints task text).length)).handOver sink task.source
        (job.haulOf task text)).signal.ClearFor 1
          ↔ Breaks job sink (task :: tasks ++ more) p.signal p.sink := by
      rw [Progress.clearFor_handOver_iff, job.haulOf_records ht, hbreaks]
      exact and_congr_left fun _ => ⟨Signal.ClearFor.of_wait, Signal.ClearFor.wait⟩
    by_cases hdown : ((p.wait (1 + (job.checkpoints task text).length)).handOver sink task.source
        (job.haulOf task text)).signal.ClearFor 1
    · rw [run_behind_unpaced unpaced tasks hdown]
      exact .broken rfl (hbehind.mp hdown)
    · rw [run_behind_up job sink tasks hdown]
      exact .stopped rfl (Progress.look_of_not_clear hdown) (mt hbehind.mpr hdown)
  · have hzero : (p.wait 1).signal.ClearFor 0 := Signal.ClearFor.wait hfront
    obtain ⟨i, hi, hclear, hup⟩ := Signal.exists_clearFor_of_not hzero hscan
    have hstopped : ¬ ((p.wait 1).wait i).signal.ClearFor 1 :=
      fun h => hup (Signal.ClearFor.of_wait h)
    rw [run_start_cut job sink task text tasks hi hclear hup, run_holding]
    -- what was found is still handed over, with the signal up
    have hlook : ((p.wait 1).wait i).look.2.signal.isUp = true :=
      Progress.look_of_not_clear hstopped
    have hraised := Progress.handOver_isUp task.source
      ⟨(job.foundAfter task text (job.checkpoints task text)[i]).toArray, false⟩ sink _ hlook
    rw [run_behind_up job sink tasks (Signal.not_clearFor_of_isUp hraised 1)]
    refine .stopped rfl (Progress.look_of_isUp hraised) fun h => hscan ?_
    exact Signal.ClearFor.wait ((hbreaks.mp h).1.mono (by omega))

/-- **One share.** The induction is on the logs of the share. The logs that cannot be read only cost
a look each. -/
theorem Worker.endsUnpaced_run (sink : Sink σ) (unpaced : job.settings.taskBatchSize = 0)
    (share more : List Task) (p : Progress σ) :
    EndsUnpaced job sink share more p ((ready share).run job sink p) := by
  induction share generalizing p with
  | nil =>
    rw [run_ready_nil]
    exact .passed rfl Iff.rfl
  | cons task tasks ih =>
    by_cases hfront : p.signal.ClearFor 1
    · cases hresolve : task.resolve job.environment.hasZstd with
      | error e =>
        rw [run_ready_error job sink hfront hresolve]
        have hsame : Breaks job sink (task :: tasks ++ more) p.signal p.sink
            ↔ Breaks job sink (tasks ++ more) (p.signal.wait 1) p.sink := breaks_cons_error hresolve
        rcases ih ((p.wait 1).fail ⟨task.source, e.message⟩) with
          ⟨hbroken, h⟩ | ⟨hend, hup, h⟩ | ⟨hend, h⟩
        · exact .broken hbroken (hsame.mpr h)
        · exact .stopped hend hup (mt hsame.mp h)
        · exact .passed hend (hsame.trans h)
      | ok text => exact endsUnpaced_of_readable unpaced more hfront hresolve
    · rw [run_ready_up job sink task tasks hfront]
      exact .stopped rfl (Progress.look_of_not_clear hfront) fun h => hfront h.clearFor_one

/-- **All shares.** One worker after the other goes through its share, and one of them breaks off
exactly if the logs make a search break off. -/
theorem Run.exists_isBroken_finishEach_iff (sink : Sink σ)
    (unpaced : job.settings.taskBatchSize = 0) (shs : List (List Task)) (p : Progress σ) :
    (∃ w ∈ (finishEach job sink (shs.map .ready) p).1, w.isBroken = true)
      ↔ Breaks job sink shs.flatten p.signal p.sink := by
  induction shs generalizing p with
  | nil =>
    refine iff_of_false ?_ not_breaks_nil
    rintro ⟨w, hw, -⟩
    cases hw
  | cons share shs ih =>
    have hexists {w : Worker} {ws : List Worker} : (∃ v ∈ w :: ws, v.isBroken = true)
        ↔ w.isBroken = true ∨ ∃ v ∈ ws, v.isBroken = true := by
      simp only [List.mem_cons, exists_eq_or_imp]
    rw [List.map_cons, finishEach, List.flatten_cons]
    dsimp only
    rw [hexists, ih]
    rcases Worker.endsUnpaced_run sink unpaced share shs.flatten p with
      ⟨hbroken, h⟩ | ⟨hend, hup, h⟩ | ⟨hend, h⟩
    · exact iff_of_true (.inl hbroken) h
    · refine iff_of_false ?_ h
      rintro (hbroken | hlater)
      · rw [hend] at hbroken
        cases hbroken
      · exact Signal.not_clearFor_of_isUp hup 1 hlater.clearFor_one
    · rw [h, hend]
      exact or_iff_right Bool.false_ne_true

end Program

/-! ## The report -/

section Report

variable {σ : Type}

/-- A report is given unless some worker has broken off. -/
theorem Run.exists_report_iff (run : Run σ) (total workers : Nat) :
    (∃ summary, run.report total workers = .ok summary) ↔ ¬ run.abort?.isSome = true := by
  rw [report]
  cases run.abort? with
  | none => exact iff_of_true ⟨_, rfl⟩ Bool.false_ne_true
  | some a =>
    refine iff_of_false ?_ (not_not_intro rfl)
    rintro ⟨summary, h⟩
    cases h

theorem Run.abort?_ofShares (shs : List (List Task)) (signal : Signal) (start : σ) :
    (ofShares shs signal start).abort? = none := by
  rw [abort?, List.findSome?_eq_none_iff]
  intro w hw
  obtain ⟨share, -, rfl⟩ := List.mem_map.mp hw
  rfl

/-- The report of the program. -/
theorem exists_report_run_iff (job : Job) (sink : Sink σ) (signal : Signal) (start : σ)
    (tasks : List Task) :
    (∃ summary, (run job sink signal start tasks).report = .ok summary)
      ↔ ¬ (job.settings.taskBatchSize = 0 ∧ Breaks job sink tasks signal start) := by
  by_cases hempty : tasks = []
  · subst hempty
    rw [run_nil]
    exact iff_of_true ⟨_, rfl⟩ fun h => not_breaks_nil h.2
  · have manned := workerCount_pos job.environment job.settings tasks.length
    obtain ⟨shs, hshares, hflatten⟩ := exists_shares manned tasks
    rw [run_of_shares job sink signal start hempty hshares]
    dsimp only
    rw [Run.exists_report_iff]
    by_cases unpaced : job.settings.taskBatchSize = 0
    · rw [Run.abort?_isSome_iff, and_iff_right unpaced]
      have h := Run.exists_isBroken_finishEach_iff sink unpaced shs
        { signal, sink := start }
      rw [hflatten] at h
      exact not_congr h
    · obtain ⟨order, horder⟩ := (Run.ofShares shs signal start).exists_finish_eq_after job sink
      rw [horder, Run.abort?_after_iff, Run.abort?_ofShares]
      simp [unpaced]

/-- **Which searches come to a report.** No setting leaves a worker without a share or with
checkpoints that are no line apart. In any order of steps there is a report, unless the number of
logs from one pause to the next is zero and a worker counts the logs up to its next pause. The
program itself gives a report unless, with this number zero, the logs make a search break off. -/
theorem run_reports (job : Job) (sink : Sink σ) (signal : Signal) (start : σ) (tasks : List Task) :
    0 < job.interval
      ∧ (∃ shs, shares (workerCount job.environment job.settings tasks.length) tasks = .ok shs
        ∧ shs.flatten = tasks ∧ (∀ share ∈ shs, share ≠ [])
        ∧ ∀ order workers, (∃ summary, ((Run.ofShares shs signal start).after job sink order).report
            tasks.length workers = .ok summary)
          ↔ ¬ (job.settings.taskBatchSize = 0 ∧ ∃ first i later, order = first ++ i :: later
            ∧ ((Run.ofShares shs signal start).after job sink first).Counts i))
      ∧ ((∃ summary, (run job sink signal start tasks).report = .ok summary)
        ↔ ¬ (job.settings.taskBatchSize = 0 ∧ Breaks job sink tasks signal start)) := by
  have manned : 0 < workerCount job.environment job.settings tasks.length := Nat.le_max_left 1 _
  obtain ⟨shs, hshares, hflatten⟩ := exists_shares manned tasks
  refine ⟨Nat.le_max_left 1 _, ⟨shs, hshares, hflatten, ?_, fun order workers => ?_⟩,
    exists_report_run_iff job sink signal start tasks⟩
  · exact fun share hshare => ne_nil_of_mem_shares hshares hshare
  · rw [Run.exists_report_iff, Run.abort?_after_iff, Run.abort?_ofShares]
    simp only [Option.isSome_none, Bool.false_eq_true, false_or]

theorem shares_singleton (job : Job) (task : Task) :
    shares (workerCount job.environment job.settings 1) [task] = .ok [[task]] := by
  have hcount : workerCount job.environment job.settings 1 = 1 := by
    unfold workerCount
    omega
  rw [hcount]
  exact shares_one (List.cons_ne_nil _ _)

/-- A search of one log that breaks off has passed on by then what the log holds. -/
theorem run_singleton_of_breaks {job : Job} {sink : Sink σ} {signal : Signal} {start : σ}
    {task : Task} {text : String} (unpaced : job.settings.taskBatchSize = 0)
    (ht : task.resolve job.environment.hasZstd = .ok text)
    (hclear : signal.ClearFor (1 + (job.checkpoints task text).length + 1))
    (hroom : job.keptOf task ≠ [] → (sink.accept (job.keptOf task) start).1 = false) :
    run job sink signal start [task]
      = ⟨.error .noBatchSize, (Progress.handOver sink task.source (job.haulOf task text)
        { signal, sink := start }).sink⟩ := by
  let p : Progress σ := { signal, sink := start }
  have hscan : (p.wait 1).signal.ClearFor (job.checkpoints task text).length :=
    Signal.ClearFor.wait (hclear.mono (Nat.le_succ _))
  have hbehind : ((p.wait (1 + (job.checkpoints task text).length)).handOver sink task.source
      (job.haulOf task text)).signal.ClearFor 1 := by
    rw [Progress.clearFor_handOver_iff, job.haulOf_records ht]
    exact ⟨hclear.wait, hroom⟩
  have hrun : (Worker.ready [task]).run job sink p = (.broken .noBatchSize,
      ((p.wait (1 + (job.checkpoints task text).length)).handOver sink task.source
        (job.haulOf task text)).wait 1) := by
    rw [Worker.run_ready_ok job sink (hclear.mono (by omega)) ht,
      Worker.run_start_clear job sink task text [] hscan, Worker.run_holding, Progress.wait_wait,
      Worker.run_behind_unpaced unpaced [] hbehind]
  -- the looks of the scan leave no trace in the sink
  have hsink (n : Nat) : ((p.wait n).handOver sink task.source (job.haulOf task text)).sink
      = (p.handOver sink task.source (job.haulOf task text)).sink := by
    unfold Progress.handOver Progress.deliver
    split <;> rfl
  have hsome : [task] ≠ [] := List.cons_ne_nil _ _
  rw [run_of_shares job sink signal start hsome (shares_singleton job task)]
  dsimp only
  rw [Run.ofShares, Run.finish, List.map_singleton, Run.finishEach, Run.finishEach, hrun, ← hsink]
  rfl

/-- A search for "up" without a number of logs from one pause to the next. -/
def unpacedJob : Job where
  criteria := { expression := .keyword "up" }
  settings := { taskBatchSize := 0 }
  environment := { currentYear := 2031, processors := some 4 }

/-- A log with one record. -/
def upLog : Task :=
  .text "a.log" "2024-01-02 03:04:05 up"

/-- Its record. -/
def upRecord : Record where
  timestamp := ⟨⟨2024, 1, 2, by decide⟩, 3, 4, 5, 0, by decide⟩
  content := "2024-01-02 03:04:05 up"
  source := "a.log"
  sequence := 0
  lineNumber := 1

/-- A search that comes to no report, although all that there is to find has been passed on. -/
theorem no_report_unpacedJob :
    (run unpacedJob (Results.sink 20000) {} {} [upLog]).report = .error .noBatchSize
      ∧ (run unpacedJob (Results.sink 20000) {} {} [upLog]).sink.records.toList = [upRecord] := by
  have hyear : (Timestamp.yearFor 2031 "a.log" (some "a.log") none).year = 2031 := by cbv
  have hrecords : unpacedJob.recordsOf upLog "2024-01-02 03:04:05 up" = [upRecord] := by
    show Record.ofText "2024-01-02 03:04:05 up" "a.log"
      (Timestamp.yearFor 2031 "a.log" (some "a.log") none).year = _
    rw [hyear]
    cbv
  have haccept : unpacedJob.criteria.accept upRecord = true := by decide
  have hkept : unpacedJob.keptOf upLog = [upRecord] := by
    rw [Job.keptOf, Job.matchesOf_of_resolve rfl, Job.matchesIn, hrecords,
      List.filter_cons_of_pos haccept]
    rfl
  have hroom : unpacedJob.keptOf upLog ≠ []
      → ((Results.sink 20000).accept (unpacedJob.keptOf upLog) {}).1 = false := by
    rw [hkept]
    exact fun _ => rfl
  have hclear (n : Nat) : Signal.ClearFor {} n := Signal.clearFor_of_raisedAt rfl rfl n
  have hrun : run unpacedJob (Results.sink 20000) {} {} [upLog] = _ :=
    run_singleton_of_breaks rfl rfl (hclear _) hroom
  rw [hrun]
  refine ⟨rfl, ?_⟩
  dsimp only
  rw [Progress.handOver_records 20000 _ _ _ (Nat.zero_le _), unpacedJob.haulOf_records rfl, hkept]
  rfl

end Report

end LogSearch.Search
