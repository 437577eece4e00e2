/-
One worker on its own.

A worker alone sees the signal change for two reasons only: the sink it delivers
to, and whatever raises the signal from outside. Both show at its looks, so all
that a worker needs to know about the signal is for how many looks it stays clear
(`Signal.ClearFor`). This file says once what a step of a worker can be
(`Worker.step_cases`), turns the steps into equations between runs, one for each
kind of step, and folds the looks within one log into a single equation:

* `run_start_clear`: while the signal stays clear for all looks of a scan, the
  scan ends with `haulOf`, and only the number of looks has changed;
* `run_start_cut`: if it goes up at the `i`-th of them, the worker holds what
  feeding has completed by then, and it feeds no further line.
-/
import LogSearch.Proofs.Search.Scanning
import LogSearch.Search.Worker

set_option autoImplicit false

namespace LogSearch.Search

/-! ## The signal -/

namespace Signal

/-- The signal after so many looks that found it clear. -/
def wait (s : Signal) (n : Nat) : Signal :=
  { s with looks := s.looks + n }

/-- Whether the next `n` looks find the signal clear. -/
def ClearFor (s : Signal) (n : Nat) : Prop :=
  s.isUp = false ∧ ∀ k, s.raisedAt = some k → s.looks + n < k

variable {s : Signal} {n : Nat}

theorem wait_looks (s : Signal) (n : Nat) : (s.wait n).looks = s.looks + n := rfl

theorem ClearFor.mono {m : Nat} (h : s.ClearFor n) (hm : m ≤ n) : s.ClearFor m :=
  ⟨h.1, fun k hk => by have := h.2 k hk; omega⟩

theorem ClearFor.wait {m : Nat} (h : s.ClearFor (n + m)) : (s.wait n).ClearFor m :=
  ⟨h.1, fun k hk => by have := h.2 k hk; rw [wait_looks]; omega⟩

theorem ClearFor.of_wait {m : Nat} (h : (s.wait n).ClearFor m) : s.ClearFor (n + m) :=
  ⟨h.1, fun k hk => by have := h.2 k hk; rw [wait_looks] at this; omega⟩

/-- Nothing outside raises the signal, so it stays clear until the search raises it. -/
theorem clearFor_of_raisedAt (hup : s.isUp = false) (hraised : s.raisedAt = none) (n : Nat) :
    s.ClearFor n :=
  ⟨hup, fun k hk => by rw [hraised] at hk; cases hk⟩

/-- The signal goes up at the `k`-th look. -/
theorem clearFor_iff {k : Nat} (hup : s.isUp = false) (hraised : s.raisedAt = some k) :
    s.ClearFor n ↔ s.looks + n < k := by
  rw [ClearFor, hraised]
  exact ⟨fun h => h.2 k rfl, fun h => ⟨hup, fun j hj => Option.some.inj hj ▸ h⟩⟩

theorem look_of_clear (h : s.ClearFor 1) : s.look = (false, s.wait 1) := by
  obtain ⟨hup, hraised⟩ := h
  have hany : s.raisedAt.any (· ≤ s.looks + 1) = false := by
    cases hr : s.raisedAt with
    | none => rfl
    | some k =>
      have hk := hraised k hr
      simp only [Option.any_some, decide_eq_false_iff_not]
      omega
  simp [look, wait, hup, hany]

theorem look_of_not_clear (h : ¬ s.ClearFor 1) : s.look.1 = true := by
  by_cases hup : s.isUp = true
  · simp [look, hup]
  · rw [Bool.not_eq_true] at hup
    cases hr : s.raisedAt with
    | none => exact absurd (clearFor_of_raisedAt hup hr 1) h
    | some k =>
      have hk : k ≤ s.looks + 1 := by
        refine Nat.le_of_not_lt fun hlt => h ⟨hup, fun j hj => ?_⟩
        obtain rfl : k = j := Option.some.inj (hr.symm.trans hj)
        exact hlt
      simp [look, hr, hk]

end Signal

/-! ## The progress -/

namespace Progress

variable {σ : Type} {p : Progress σ}

/-- The progress after so many looks that found the signal clear. -/
def wait (p : Progress σ) (n : Nat) : Progress σ :=
  { p with signal := p.signal.wait n }

/-- Notes a log that could not be read. -/
def fail (p : Progress σ) (failure : Failure) : Progress σ :=
  { p with failures := p.failures.push failure }

theorem look_of_clear (h : p.signal.ClearFor 1) : p.look = (false, p.wait 1) := by
  rw [look, Signal.look_of_clear h]
  rfl

theorem look_of_not_clear (h : ¬ p.signal.ClearFor 1) : p.look.1 = true :=
  Signal.look_of_not_clear h

theorem wait_zero (p : Progress σ) : p.wait 0 = p := rfl

theorem wait_wait (p : Progress σ) (m n : Nat) : (p.wait m).wait n = p.wait (m + n) := by
  rw [wait, wait, wait, Signal.wait, Signal.wait, Signal.wait, Nat.add_assoc]

end Progress

/-! ## What a step can be -/

namespace Worker

section Makes

variable {σ : Type}

/-- A step of a worker: where it stood, where it stands, and the progress behind the step. -/
inductive Makes (job : Job) (sink : Sink σ) (p : Progress σ) : Worker → Worker → Progress σ → Prop
  /-- No log is left. -/
  | ends : Makes job sink p (ready []) finished p
  /-- The signal is up in front of a log. -/
  | stops {task : Task} {tasks : List Task} (hup : p.look.1 = true) :
      Makes job sink p (ready (task :: tasks)) finished p.look.2
  /-- The log cannot be read. -/
  | skips {task : Task} {tasks : List Task} {e : Payload.Error} (hdown : p.look.1 = false)
      (hresolve : task.resolve job.environment.hasZstd = .error e) :
      Makes job sink p (ready (task :: tasks)) (ready tasks)
        (p.look.2.fail ⟨task.source, e.message⟩)
  /-- The log is scanned up to its first checkpoint. -/
  | starts {task : Task} {tasks : List Task} {text : String} (hdown : p.look.1 = false)
      (hresolve : task.resolve job.environment.hasZstd = .ok text) :
      Makes job sink p (ready (task :: tasks))
        (ofStop task.source tasks (job.start task text)) p.look.2
  /-- The signal is up at a checkpoint. -/
  | cuts {source : String} {scan : Scan} {tasks : List Task} (hup : p.look.1 = true) :
      Makes job sink p (scanning source scan tasks) (holding source ⟨scan.found, false⟩ tasks)
        p.look.2
  /-- The log is scanned on to its next checkpoint. -/
  | resumes {source : String} {scan : Scan} {tasks : List Task} (hdown : p.look.1 = false) :
      Makes job sink p (scanning source scan tasks) (ofStop source tasks (job.resume scan))
        p.look.2
  /-- The haul of a log is handed over. -/
  | handsOver {source : String} {haul : Haul} {tasks : List Task} :
      Makes job sink p (holding source haul tasks) (behind tasks) (p.handOver sink source haul)
  /-- The signal is up behind a log. -/
  | leaves {tasks : List Task} (hup : p.look.1 = true) :
      Makes job sink p (behind tasks) finished p.look.2
  /-- There is no number of logs from one pause to the next. -/
  | breaks {tasks : List Task} (hdown : p.look.1 = false)
      (hsize : job.settings.taskBatchSize = 0) :
      Makes job sink p (behind tasks) (broken .noBatchSize) p.look.2
  /-- The next log is due. -/
  | goesOn {tasks : List Task} (hdown : p.look.1 = false)
      (hsize : job.settings.taskBatchSize ≠ 0) : Makes job sink p (behind tasks) (ready tasks) p.look.2
  /-- A worker that has finished stays so. -/
  | rests : Makes job sink p finished finished p
  /-- A worker that has broken off stays so. -/
  | fails {a : Abort} : Makes job sink p (broken a) (broken a) p

variable {job : Job} {sink : Sink σ} {p : Progress σ}

/-- A step is what the place, the look and the log of the worker make of it. -/
theorem Makes.step_eq {w next : Worker} {q : Progress σ} (h : Makes job sink p w next q) :
    w.step job sink p = (next, q) := by
  cases h with
  | ends => rfl
  | stops hup => simp only [step, hup, if_true]
  | skips hdown hresolve => simp only [step, hdown, hresolve, Bool.false_eq_true, if_false]; rfl
  | starts hdown hresolve => simp only [step, hdown, hresolve, Bool.false_eq_true, if_false]
  | cuts hup => simp only [step, hup, if_true]
  | resumes hdown => simp only [step, hdown, Bool.false_eq_true, if_false]
  | handsOver => rfl
  | leaves hup => simp only [step, hup, if_true]
  | breaks hdown hsize => simp only [step, hdown, hsize, Bool.false_eq_true, if_false, if_true]
  | goesOn hdown hsize => simp only [step, hdown, hsize, Bool.false_eq_true, if_false]
  | rests => rfl
  | fails => rfl

theorem exists_makes (job : Job) (sink : Sink σ) (p : Progress σ) (w : Worker) :
    ∃ next q, Makes job sink p w next q := by
  rcases w with (_ | ⟨task, tasks⟩) | ⟨source, scan, tasks⟩ | ⟨source, haul, tasks⟩ | tasks | _ | a
  · exact ⟨_, _, .ends⟩
  · cases hlook : p.look.1 with
    | true => exact ⟨_, _, .stops hlook⟩
    | false =>
      cases hresolve : task.resolve job.environment.hasZstd with
      | error e => exact ⟨_, _, .skips hlook hresolve⟩
      | ok text => exact ⟨_, _, .starts hlook hresolve⟩
  · cases hlook : p.look.1 with
    | true => exact ⟨_, _, .cuts hlook⟩
    | false => exact ⟨_, _, .resumes hlook⟩
  · exact ⟨_, _, .handsOver⟩
  · cases hlook : p.look.1 with
    | true => exact ⟨_, _, .leaves hlook⟩
    | false =>
      by_cases hsize : job.settings.taskBatchSize = 0
      · exact ⟨_, _, .breaks hlook hsize⟩
      · exact ⟨_, _, .goesOn hlook hsize⟩
  · exact ⟨_, _, .rests⟩
  · exact ⟨_, _, .fails⟩

/-- **What a step can be.** All that is said of steps is said of these twelve kinds. -/
theorem step_cases (job : Job) (sink : Sink σ) (p : Progress σ) (w : Worker) :
    ∃ next q, w.step job sink p = (next, q) ∧ Makes job sink p w next q := by
  obtain ⟨next, q, hmakes⟩ := exists_makes job sink p w
  exact ⟨next, q, hmakes.step_eq, hmakes⟩

end Makes

/-! ## The steps as equations between runs -/

section Steps

variable {σ : Type} (job : Job) (sink : Sink σ) (p : Progress σ)

theorem run_of_isDone {w : Worker} (h : w.isDone = true) : w.run job sink p = (w, p) := by
  rw [run, if_pos h]

theorem run_eq_step {w : Worker} (h : w.isDone = false) :
    w.run job sink p = (w.step job sink p).1.run job sink (w.step job sink p).2 := by
  rw [run, if_neg (by simp [h])]

theorem run_finished : finished.run job sink p = (finished, p) :=
  run_of_isDone job sink p rfl

theorem run_ready_nil : (ready []).run job sink p = (finished, p) := by
  rw [run_eq_step job sink p rfl, Makes.ends.step_eq, run_finished]

variable {p}

theorem run_ready_up (task : Task) (tasks : List Task) (h : ¬ p.signal.ClearFor 1) :
    (ready (task :: tasks)).run job sink p = (finished, p.look.2) := by
  have hup := Progress.look_of_not_clear h
  rw [run_eq_step job sink p rfl, (Makes.stops hup).step_eq, run_finished]

theorem run_ready_error {task : Task} {tasks : List Task} {e : Payload.Error}
    (h : p.signal.ClearFor 1) (he : task.resolve job.environment.hasZstd = .error e) :
    (ready (task :: tasks)).run job sink p
      = (ready tasks).run job sink ((p.wait 1).fail ⟨task.source, e.message⟩) := by
  have hlook := Progress.look_of_clear h
  have hdown : p.look.1 = false := congrArg Prod.fst hlook
  rw [run_eq_step job sink p rfl, (Makes.skips hdown he).step_eq, hlook]

theorem run_ready_ok {task : Task} {tasks : List Task} {text : String}
    (h : p.signal.ClearFor 1) (ht : task.resolve job.environment.hasZstd = .ok text) :
    (ready (task :: tasks)).run job sink p
      = (ofStop task.source tasks (job.start task text)).run job sink (p.wait 1) := by
  have hlook := Progress.look_of_clear h
  have hdown : p.look.1 = false := congrArg Prod.fst hlook
  rw [run_eq_step job sink p rfl, (Makes.starts hdown ht).step_eq, hlook]

theorem run_holding (source : String) (haul : Haul) (tasks : List Task) :
    (holding source haul tasks).run job sink p
      = (behind tasks).run job sink (p.handOver sink source haul) := by
  rw [run_eq_step job sink p rfl, Makes.handsOver.step_eq]

theorem run_behind_up (tasks : List Task) (h : ¬ p.signal.ClearFor 1) :
    (behind tasks).run job sink p = (finished, p.look.2) := by
  have hup := Progress.look_of_not_clear h
  rw [run_eq_step job sink p rfl, (Makes.leaves hup).step_eq, run_finished]

theorem run_behind_clear (tasks : List Task) (paced : 1 ≤ job.settings.taskBatchSize)
    (h : p.signal.ClearFor 1) :
    (behind tasks).run job sink p = (ready tasks).run job sink (p.wait 1) := by
  have hlook := Progress.look_of_clear h
  have hdown : p.look.1 = false := congrArg Prod.fst hlook
  have hsize : job.settings.taskBatchSize ≠ 0 := by omega
  rw [run_eq_step job sink p rfl, (Makes.goesOn hdown hsize).step_eq, hlook]

theorem run_scanning_up (source : String) (scan : Scan) (tasks : List Task)
    (h : ¬ p.signal.ClearFor 1) :
    (scanning source scan tasks).run job sink p
      = (holding source ⟨scan.found, false⟩ tasks).run job sink p.look.2 := by
  have hup := Progress.look_of_not_clear h
  rw [run_eq_step job sink p rfl, (Makes.cuts hup).step_eq]

theorem run_scanning_clear (source : String) (scan : Scan) (tasks : List Task)
    (h : p.signal.ClearFor 1) :
    (scanning source scan tasks).run job sink p
      = (ofStop source tasks (job.resume scan)).run job sink (p.wait 1) := by
  have hlook := Progress.look_of_clear h
  have hdown : p.look.1 = false := congrArg Prod.fst hlook
  rw [run_eq_step job sink p rfl, (Makes.resumes hdown).step_eq, hlook]

end Steps

/-! ## The looks within one log -/

section Looks

variable {σ : Type} (job : Job) (sink : Sink σ) (task : Task) (text : String)
variable (tasks : List Task)

theorem run_scan_clear {fed : Nat} {looks : List Nat} {p : Progress σ}
    (hlooks : job.checkpointsFrom task text fed = looks)
    (hclear : p.signal.ClearFor looks.length) :
    (ofStop task.source tasks (job.stopOf task text looks)).run job sink p
      = (holding task.source (job.haulOf task text) tasks).run job sink (p.wait looks.length) := by
  -- the induction is on the looks ahead, not on the lines: between looks nothing is shared
  induction looks generalizing fed p with
  | nil => rfl
  | cons i looks ih =>
    obtain ⟨hlt, hat, hrest⟩ := job.of_checkpointsFrom_eq_cons task text hlooks
    rw [List.length_cons, Nat.add_comm] at hclear
    rw [Job.stopOf, ofStop, run_scanning_clear job sink _ _ _ (hclear.mono (by omega)),
      job.resume_scanAt task text hlt hat.2, hrest, ih hrest hclear.wait,
      Progress.wait_wait, List.length_cons, Nat.add_comm]

theorem run_scan_cut {fed i : Nat} {looks : List Nat} {p : Progress σ}
    (hlooks : job.checkpointsFrom task text fed = looks) (hi : i < looks.length)
    (hclear : p.signal.ClearFor i) (hup : ¬ p.signal.ClearFor (i + 1)) :
    (ofStop task.source tasks (job.stopOf task text looks)).run job sink p
      = (holding task.source ⟨(job.foundAfter task text looks[i]).toArray, false⟩ tasks).run
          job sink (p.wait i).look.2 := by
  -- the first `i` looks find the signal clear, so the induction resumes the scan behind each
  induction looks generalizing fed i p with
  | nil => cases hi
  | cons j looks ih =>
    obtain ⟨hlt, hat, hrest⟩ := job.of_checkpointsFrom_eq_cons task text hlooks
    rw [Job.stopOf, ofStop]
    cases i with
    | zero => rw [run_scanning_up job sink _ _ _ hup, Progress.wait_zero]; rfl
    | succ i =>
      have hi' : i < looks.length := Nat.lt_of_succ_lt_succ hi
      rw [Nat.add_comm] at hclear
      have hup' : ¬ (p.wait 1).signal.ClearFor (i + 1) := by
        intro h
        have := Signal.ClearFor.of_wait h
        rw [Nat.add_comm] at this
        exact hup this
      rw [run_scanning_clear job sink _ _ _ (hclear.mono (by omega)),
        job.resume_scanAt task text hlt hat.2, hrest, ih hrest hi' hclear.wait hup',
        Progress.wait_wait, Nat.add_comm 1 i]
      rfl

/-- **A scan in the clear.** The looks of a scan leave no trace but their number. -/
theorem run_start_clear {p : Progress σ}
    (hclear : p.signal.ClearFor (job.checkpoints task text).length) :
    (ofStop task.source tasks (job.start task text)).run job sink p
      = (holding task.source (job.haulOf task text) tasks).run job sink
          (p.wait (job.checkpoints task text).length) := by
  have hlooks : job.checkpointsFrom task text 0 = job.checkpoints task text := rfl
  rw [job.start_eq, run_scan_clear job sink task text tasks hlooks hclear]

/-- **A scan that is stopped.** At the look that finds the signal up the worker holds what
feeding the lines in front of this checkpoint has completed. The open record is not
completed, and no line from there on is fed. -/
theorem run_start_cut {i : Nat} {p : Progress σ} (hi : i < (job.checkpoints task text).length)
    (hclear : p.signal.ClearFor i) (hup : ¬ p.signal.ClearFor (i + 1)) :
    (ofStop task.source tasks (job.start task text)).run job sink p
      = (holding task.source
          ⟨(job.foundAfter task text (job.checkpoints task text)[i]).toArray, false⟩ tasks).run
          job sink (p.wait i).look.2 := by
  have hlooks : job.checkpointsFrom task text 0 = job.checkpoints task text := rfl
  rw [job.start_eq, run_scan_cut job sink task text tasks hlooks hi hclear hup]

end Looks

end Worker

end LogSearch.Search
