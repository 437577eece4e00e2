/-
What of a log shows in a search.

A search asks three things of a log: the name under which its records are reported, the name by
which years are guessed, and its text. Where it was kept makes no difference. Workers whose logs
agree in the three stay alike at every step and do the same to what they share
(`Worker.Alike.step`). Since logs are shared out by their number alone, searches over logs that
agree are the same search (`run_congr`).
-/
import LogSearch.Proofs.Search.Solo
import LogSearch.Search.Run
import Mathlib.Data.List.Forall2

set_option autoImplicit false

namespace LogSearch.Search

/-- What a search can tell of a log. -/
def Task.view (hasZstd : Bool) (task : Task) : String × String × Except Payload.Error String :=
  (task.source, task.name, task.resolve hasZstd)

/-- Whether a search can tell two lists of logs apart. -/
def SameView (hasZstd : Bool) (tasks others : List Task) : Prop :=
  tasks.map (Task.view hasZstd) = others.map (Task.view hasZstd)

/-! ## Workers -/

/-- Workers that stand at the same place, with logs ahead that cannot be told apart. -/
inductive Worker.Alike (hasZstd : Bool) : Worker → Worker → Prop
  | ready {tasks others : List Task} (h : SameView hasZstd tasks others) :
    Alike hasZstd (ready tasks) (ready others)
  | scanning (source : String) (scan : Scan) {tasks others : List Task}
    (h : SameView hasZstd tasks others) :
    Alike hasZstd (scanning source scan tasks) (scanning source scan others)
  | holding (source : String) (haul : Haul) {tasks others : List Task}
    (h : SameView hasZstd tasks others) :
    Alike hasZstd (holding source haul tasks) (holding source haul others)
  | behind {tasks others : List Task} (h : SameView hasZstd tasks others) :
    Alike hasZstd (behind tasks) (behind others)
  | finished : Alike hasZstd finished finished
  | broken (a : Abort) : Alike hasZstd (broken a) (broken a)

section

variable {σ : Type} {job : Job} (sink : Sink σ) {w v : Worker}

theorem Job.start_congr {hasZstd : Bool} {task other : Task} (text : String)
    (h : task.view hasZstd = other.view hasZstd) : job.start task text = job.start other text := by
  obtain ⟨hsource, hrest⟩ := Prod.mk.inj h
  obtain ⟨hname, -⟩ := Prod.mk.inj hrest
  unfold Job.start
  rw [hsource, hname]

theorem Worker.Alike.ofStop {hasZstd : Bool} (source : String) {tasks others : List Task}
    (stop : Scan.Stop) (h : SameView hasZstd tasks others) :
    Alike hasZstd (Worker.ofStop source tasks stop) (Worker.ofStop source others stop) := by
  cases stop with
  | checkpoint scan => exact .scanning source scan h
  | ended haul => exact .holding source haul h

/-- **One step.** Workers that are alike do the same and stay alike. -/
theorem Worker.Alike.step (h : Alike job.environment.hasZstd w v) (p : Progress σ) :
    Alike job.environment.hasZstd (w.step job sink p).1 (v.step job sink p).1
      ∧ (w.step job sink p).2 = (v.step job sink p).2 := by
  -- both look at the same signal, so they go the same way at each branch of the step
  cases h with
  | @ready tasks others h =>
    rcases tasks with _ | ⟨task, tasks⟩
    · obtain rfl : others = [] := List.map_eq_nil_iff.mp h.symm
      exact ⟨.finished, rfl⟩
    · obtain ⟨other, others, rfl, hview, hrest⟩ := List.map_eq_cons_iff.mp h.symm
      have hsource : task.source = other.source := (Prod.mk.inj hview.symm).1
      have hresolve : task.resolve job.environment.hasZstd
          = other.resolve job.environment.hasZstd := (Prod.mk.inj (Prod.mk.inj hview.symm).2).2
      have hsame : SameView job.environment.hasZstd tasks others := hrest.symm
      rw [Worker.step, Worker.step, hresolve, hsource]
      dsimp only
      split
      · exact ⟨.finished, rfl⟩
      · split
        · exact ⟨.ready hsame, rfl⟩
        · rename_i text htext
          rw [Job.start_congr text hview.symm]
          exact ⟨.ofStop _ _ hsame, rfl⟩
  | scanning source scan h =>
    rw [Worker.step, Worker.step]
    dsimp only
    split
    · exact ⟨.holding _ _ h, rfl⟩
    · exact ⟨.ofStop _ _ h, rfl⟩
  | holding source haul h => exact ⟨.behind h, rfl⟩
  | behind h =>
    rw [Worker.step, Worker.step]
    dsimp only
    split
    · exact ⟨.finished, rfl⟩
    · split
      · exact ⟨.broken _, rfl⟩
      · exact ⟨.ready h, rfl⟩
  | finished => exact ⟨.finished, rfl⟩
  | broken a => exact ⟨.broken a, rfl⟩

theorem Worker.Alike.isDone_eq {hasZstd : Bool} (h : Alike hasZstd w v) : w.isDone = v.isDone := by
  cases h <;> rfl

theorem Worker.Alike.run (w : Worker) (p : Progress σ) :
    ∀ v, Alike job.environment.hasZstd w v →
      Alike job.environment.hasZstd (w.run job sink p).1 (v.run job sink p).1
        ∧ (w.run job sink p).2 = (v.run job sink p).2 := by
  -- the induction is the recursion of one of the two, and the other one keeps up
  induction w, p using Worker.run.induct job sink with
  | case1 w p hdone =>
    intro v h
    rw [run_of_isDone job sink p hdone, run_of_isDone job sink p (h.isDone_eq ▸ hdone)]
    exact ⟨h, rfl⟩
  | case2 w p hdone next ih =>
    intro v h
    have hgoes : w.isDone = false := Bool.eq_false_iff.mpr hdone
    obtain ⟨hstep, hprogress⟩ := h.step sink p
    rw [run_eq_step job sink p hgoes, run_eq_step job sink p (h.isDone_eq ▸ hgoes), ← hprogress]
    exact ih _ hstep

theorem Run.finishEach_congr {ws vs : List Worker}
    (h : List.Forall₂ (Worker.Alike job.environment.hasZstd) ws vs) (p : Progress σ) :
    List.Forall₂ (Worker.Alike job.environment.hasZstd) (finishEach job sink ws p).1
        (finishEach job sink vs p).1
      ∧ (finishEach job sink ws p).2 = (finishEach job sink vs p).2 := by
  induction h generalizing p with
  | nil => exact ⟨.nil, rfl⟩
  | cons hfirst hrest ih =>
    obtain ⟨hended, hprogress⟩ := Worker.Alike.run sink _ p _ hfirst
    rw [finishEach, finishEach]
    dsimp only
    rw [← hprogress]
    exact ⟨.cons hended (ih _).1, (ih _).2⟩

/-- Workers that are alike break off for the same reason. -/
theorem Run.abort?_congr {hasZstd : Bool} {ws vs : List Worker}
    (h : List.Forall₂ (Worker.Alike hasZstd) ws vs) (p : Progress σ) :
    (⟨ws, p⟩ : Run σ).abort? = (⟨vs, p⟩ : Run σ).abort? := by
  unfold Run.abort?
  induction h with
  | nil => rfl
  | cons hfirst hrest ih =>
    rw [List.findSome?_cons, List.findSome?_cons, ih]
    cases hfirst <;> rfl

end

/-! ## Shares -/

theorem runsOf_map {α β : Type} (f : α → β) (size : Nat) (xs : List α) :
    runsOf size (xs.map f) = (runsOf size xs).map (List.map f) := by
  induction xs using runsOf.induct size with
  | case1 xs h =>
    have hnone : runsOf size xs = [] := by rw [runsOf, if_pos h]
    rw [hnone, runsOf, if_pos (by rwa [List.isEmpty_map])]
    rfl
  | case2 xs h ih =>
    have hsome : runsOf size xs = xs.take size :: runsOf size (xs.drop size) := by
      rw [runsOf, if_neg h]
    rw [hsome, runsOf, if_neg (by rwa [List.isEmpty_map]), List.map_cons, List.map_take, ← ih,
      List.map_drop]

/-- Sharing out looks at the number of logs only. -/
theorem shares_map {α β : Type} (f : α → β) (workers : Int) (xs : List α) :
    shares workers (xs.map f) = (shares workers xs).map (List.map (List.map f)) := by
  unfold shares
  rw [List.isEmpty_map, List.length_map]
  split
  · rfl
  · split
    · rfl
    · dsimp only
      split
      · rfl
      · rw [runsOf_map]
        rfl

/-! ## Searches -/

theorem Run.finish_congr {σ : Type} {job : Job} (sink : Sink σ) (signal : Signal) (start : σ)
    {shs others : List (List Task)} (h : shs.map (List.map (Task.view job.environment.hasZstd))
      = others.map (List.map (Task.view job.environment.hasZstd))) (total workers : Nat) :
    ((ofShares shs signal start).finish job sink).report total workers
        = ((ofShares others signal start).finish job sink).report total workers
      ∧ ((ofShares shs signal start).finish job sink).progress
        = ((ofShares others signal start).finish job sink).progress := by
  have halike : List.Forall₂ (Worker.Alike job.environment.hasZstd) (shs.map Worker.ready)
      (others.map Worker.ready) := by
    rw [← List.forall₂_eq_eq_eq, List.forall₂_map_left_iff, List.forall₂_map_right_iff] at h
    rw [List.forall₂_map_left_iff, List.forall₂_map_right_iff]
    exact h.imp fun _ _ => .ready
  obtain ⟨hended, hprogress⟩ := finishEach_congr sink halike { signal, sink := start }
  refine ⟨?_, hprogress⟩
  simp only [finish, ofShares, report, abort?_congr hended, hprogress]

/-- **Searches over logs that cannot be told apart are the same search.** -/
theorem run_congr {σ : Type} {job : Job} (sink : Sink σ) (signal : Signal) (start : σ)
    {tasks others : List Task} (h : SameView job.environment.hasZstd tasks others) :
    run job sink signal start tasks = run job sink signal start others := by
  have hlength : tasks.length = others.length := by
    rw [← List.length_map (Task.view job.environment.hasZstd), h, List.length_map]
  have hempty : tasks.isEmpty = others.isEmpty := by
    rw [← List.isEmpty_map (f := Task.view job.environment.hasZstd), h, List.isEmpty_map]
  rw [run, run, hempty, hlength]
  generalize workerCount job.environment job.settings others.length = workers
  -- both are shared out alike, or for the same reason not at all
  have hshares := congrArg (shares workers) h
  rw [shares_map, shares_map] at hshares
  split
  · rfl
  · dsimp only
    cases htasks : shares workers tasks with
    | error e =>
      cases hothers : shares workers others with
      | error e' =>
        rw [htasks, hothers] at hshares
        cases hshares
        rfl
      | ok shs' =>
        rw [htasks, hothers] at hshares
        cases hshares
    | ok shs =>
      cases hothers : shares workers others with
      | error e' =>
        rw [htasks, hothers] at hshares
        cases hshares
      | ok shs' =>
        rw [htasks, hothers] at hshares
        obtain ⟨hreport, hprogress⟩ :=
          Run.finish_congr sink signal start (Except.ok.inj hshares) others.length workers
        dsimp only
        rw [hreport, hprogress]

end LogSearch.Search
