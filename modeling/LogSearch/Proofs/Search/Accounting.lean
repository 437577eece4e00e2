/-
The accounts of a search.

Every log is handed over, or it cannot be read and is noted as a failure, or it still lies ahead
of its worker. The three numbers add up to that of all logs as long as no worker has given up,
and workers give up only when they find the signal up (`Accounts`). This holds in any order of
steps, with any number of workers, and whenever the search is called off. So a search that ends
without having been called off, and without a full sink, has dealt with all logs, and only logs
that cannot be read are among its failures (`Accounts.report`, `run_isAccount`).
-/
import LogSearch.Proofs.Search.Delivery
import LogSearch.Proofs.Search.Schedule

set_option autoImplicit false

namespace LogSearch.Search

/-! ## One step -/

/-- The logs that a worker has not begun. -/
def Worker.waiting : Worker → List Task
  | ready tasks => tasks
  | scanning _ _ tasks => tasks
  | holding _ _ tasks => tasks
  | behind tasks => tasks
  | finished => []
  | broken _ => []

/-- Whether the worker is at an end that should not be. -/
def Worker.isBroken : Worker → Bool
  | broken _ => true
  | _ => false

/-- That a log which cannot be read is noted as it should be. -/
def Task.Fails (job : Job) (task : Task) (failure : Failure) : Prop :=
  ∃ e, task.resolve job.environment.hasZstd = .error e ∧ failure = ⟨task.source, e.message⟩

/-- The number of logs that have been dealt with. -/
def Progress.accounted {σ : Type} (p : Progress σ) : Nat :=
  p.completed + p.failures.size

/-- How a step of a worker enters into the accounts. -/
structure Worker.Books (job : Job) (w next : Worker) (p q : Progress Results) : Prop where
  whole : next.isBroken = false
  drawn : next.waiting ⊆ w.waiting
  isUp : p.signal.isUp = true → q.signal.isUp = true
  counted : q.signal.isUp = true ∨ q.accounted + next.ahead = p.accounted + w.ahead
  failed : ∀ failure ∈ q.failures, failure ∈ p.failures
    ∨ ∃ task ∈ w.waiting, task.Fails job failure
  full : (p.isFull = true → p.sink.isCapped = true) → q.isFull = true → q.sink.isCapped = true

theorem Worker.ahead_ofStop (source : String) (tasks : List Task) (stop : Scan.Stop) :
    (ofStop source tasks stop).ahead = tasks.length + 1 := by
  cases stop <;> rfl

theorem Worker.waiting_ofStop (source : String) (tasks : List Task) (stop : Scan.Stop) :
    (ofStop source tasks stop).waiting = tasks := by
  cases stop <;> rfl

theorem Worker.isBroken_ofStop (source : String) (tasks : List Task) (stop : Scan.Stop) :
    (ofStop source tasks stop).isBroken = false := by
  cases stop <;> rfl

section Step

variable {job : Job} {limit : Int} {w next : Worker} {p : Progress Results}

theorem Progress.look_of_isUp {σ : Type} {p : Progress σ} (h : p.signal.isUp = true) :
    p.look.1 = true := by
  simp [look, Signal.look, h]

theorem Worker.books_finished (h : w.ahead = 0) : Books job w finished p p where
  whole := rfl
  drawn := List.nil_subset _
  isUp h := h
  counted := .inr (congrArg (p.accounted + ·) h.symm)
  failed _ h := .inl h
  full h := h

/-- At a look that finds the signal up a worker may give up its logs. -/
theorem Worker.Books.of_look (whole : next.isBroken = false) (drawn : next.waiting ⊆ w.waiting)
    (counted : p.look.1 = true ∨ next.ahead = w.ahead) : Books job w next p p.look.2 where
  whole := whole
  drawn := drawn
  isUp := Progress.look_of_isUp
  counted := counted.imp id fun h => congrArg (p.accounted + ·) h
  failed _ h := .inl h
  full h := h

/-- A sink that a haul has filled has left records out. -/
theorem Progress.isCapped_handOver (source : String) (haul : Haul)
    (h : p.isFull = true → p.sink.isCapped = true)
    (hfull : (p.handOver (Results.sink limit) source haul).isFull = true) :
    (p.handOver (Results.sink limit) source haul).sink.isCapped = true := by
  have hdeliver : (p.deliver (Results.sink limit) haul.records).isFull = true →
      (p.deliver (Results.sink limit) haul.records).sink.isCapped = true := by
    rw [deliver]
    split
    · exact h
    · simp only [Results.sink, Results.accept_isCapped, Bool.or_eq_true]
      exact Or.imp_left h
  rw [handOver] at hfull ⊢
  dsimp only at hfull ⊢
  split
  · rfl
  · exact hdeliver hfull

/-- **One step.** Whatever a worker does, it is booked. -/
theorem Worker.books_step (limit : Int) (p : Progress Results)
    (paced : 1 ≤ job.settings.taskBatchSize) (whole : w.isBroken = false) :
    Books job w (w.step job (Results.sink limit) p).1 p (w.step job (Results.sink limit) p).2 := by
  obtain ⟨next, q, hstep, hmakes⟩ := w.step_cases job (Results.sink limit) p
  rw [hstep]
  cases hmakes with
  | ends => exact books_finished rfl
  | stops hup => exact .of_look rfl (List.nil_subset _) (.inl hup)
  | @skips task tasks e _ hresolve =>
    -- the log is skipped, so one more is dealt with and one less ahead
    refine ⟨rfl, List.subset_cons_self _ _, Progress.look_of_isUp, .inr ?_, ?_, fun h => h⟩
    · have hone : (p.failures.push ⟨task.source, e.message⟩).size = p.failures.size + 1 :=
        Array.size_push _
      show p.completed + (p.failures.push ⟨task.source, e.message⟩).size + tasks.length
        = p.completed + p.failures.size + (tasks.length + 1)
      omega
    · intro failure hmem
      rcases Array.mem_push.mp hmem with hmem | rfl
      · exact .inl hmem
      · exact .inr ⟨task, List.mem_cons_self, e, hresolve, rfl⟩
  | starts =>
    refine .of_look (isBroken_ofStop _ _ _) ?_ (.inr (ahead_ofStop _ _ _))
    rw [waiting_ofStop]
    exact List.subset_cons_self _ _
  | cuts hup => exact .of_look rfl (List.Subset.refl _) (.inl hup)
  | resumes =>
    refine .of_look (isBroken_ofStop _ _ _) ?_ (.inr (ahead_ofStop _ _ _))
    rw [waiting_ofStop]
    exact List.Subset.refl _
  | handsOver =>
    refine ⟨rfl, List.Subset.refl _, p.handOver_isUp _ _ (Results.sink limit), .inr ?_, ?_,
      Progress.isCapped_handOver _ _⟩
    · simp only [Progress.accounted, Progress.handOver_completed, Progress.handOver_failures,
        ahead]
      omega
    · intro failure hmem
      rw [Progress.handOver_failures] at hmem
      exact .inl hmem
  | leaves hup => exact .of_look rfl (List.nil_subset _) (.inl hup)
  | breaks _ hsize => omega
  | goesOn => exact .of_look rfl (List.Subset.refl _) (.inr rfl)
  | rests => exact books_finished rfl
  | fails => cases whole

end Step

/-! ## Any order of steps -/

/-- The number of logs that some workers may still hand over. -/
def aheadOf : List Worker → Nat
  | [] => 0
  | w :: ws => w.ahead + aheadOf ws

theorem aheadOf_ready (shs : List (List Task)) :
    aheadOf (shs.map Worker.ready) = shs.flatten.length := by
  induction shs with
  | nil => rfl
  | cons share shs ih =>
    rw [List.map_cons, aheadOf, ih, List.flatten_cons, List.length_append]
    rfl

theorem aheadOf_set {ws : List Worker} {i : Nat} {w : Worker} (next : Worker)
    (h : ws[i]? = some w) : aheadOf (ws.set i next) + w.ahead = aheadOf ws + next.ahead := by
  induction ws generalizing i with
  | nil => cases h
  | cons first ws ih =>
    cases i with
    | zero =>
      cases h
      simp only [List.set_cons_zero, aheadOf]
      omega
    | succ i =>
      have hrest := ih h
      simp only [List.set_cons_succ, aheadOf]
      omega

theorem aheadOf_of_isDone {ws : List Worker} (h : ∀ w ∈ ws, w.isDone = true) :
    aheadOf ws = 0 := by
  induction ws with
  | nil => rfl
  | cons w ws ih =>
    obtain ⟨hdone, hrest⟩ := List.forall_mem_cons.mp h
    have hahead : w.ahead = 0 := by
      rcases w with tasks | ⟨source, scan, tasks⟩ | ⟨source, haul, tasks⟩ | tasks | _ | a
      all_goals first
        | rfl
        | cases hdone
    rw [aheadOf, hahead, ih hrest]

/-- The accounts of a search. -/
structure Accounts (job : Job) (tasks : List Task) (run : Run Results) : Prop where
  whole : ∀ w ∈ run.workers, w.isBroken = false
  drawn : ∀ w ∈ run.workers, w.waiting ⊆ tasks
  counted : run.progress.signal.isUp = true
    ∨ run.progress.accounted + aheadOf run.workers = tasks.length
  failed : ∀ failure ∈ run.progress.failures, ∃ task ∈ tasks, task.Fails job failure
  full : run.progress.isFull = true → run.progress.sink.isCapped = true

section Accounts

variable {job : Job} {tasks : List Task} {run : Run Results}

theorem accounts_ofShares (job : Job) (shs : List (List Task)) (signal : Signal) :
    Accounts job shs.flatten (Run.ofShares shs signal {}) where
  whole := by
    intro w hw
    obtain ⟨share, -, rfl⟩ := List.mem_map.mp hw
    rfl
  drawn := by
    intro w hw
    obtain ⟨share, hshare, rfl⟩ := List.mem_map.mp hw
    exact fun task htask => List.mem_flatten.mpr ⟨share, hshare, htask⟩
  counted := by
    refine .inr ?_
    simp only [Run.ofShares, Progress.accounted, aheadOf_ready, List.size_toArray,
      List.length_nil, Nat.zero_add]
  failed failure hnone := absurd hnone (Array.not_mem_empty failure)
  full := nofun

/-- **One step keeps the accounts**, whichever worker makes it. -/
theorem Accounts.stepAt (h : Accounts job tasks run) (paced : 1 ≤ job.settings.taskBatchSize)
    (limit : Int) (i : Nat) : Accounts job tasks (run.stepAt job (Results.sink limit) i) := by
  cases hw : run.workers[i]? with
  | none =>
    rw [Run.stepAt_none hw]
    exact h
  | some w =>
    have hmem := List.mem_of_getElem? hw
    have hbooks := Worker.books_step limit run.progress paced (h.whole w hmem)
    rw [Run.stepAt_some hw]
    constructor
    · intro v hv
      rcases List.mem_or_eq_of_mem_set hv with hv | rfl
      · exact h.whole v hv
      · exact hbooks.whole
    · intro v hv
      rcases List.mem_or_eq_of_mem_set hv with hv | rfl
      · exact h.drawn v hv
      · exact fun task htask => h.drawn w hmem (hbooks.drawn htask)
    · -- the other workers have as much ahead as before
      rcases h.counted with hup | hsum
      · exact .inl (hbooks.isUp hup)
      · refine hbooks.counted.imp id fun hcount => ?_
        have hset := aheadOf_set (w.step job (Results.sink limit) run.progress).1 hw
        dsimp only
        omega
    · intro failure hfailure
      rcases hbooks.failed failure hfailure with hold | ⟨task, htask, hfails⟩
      · exact h.failed failure hold
      · exact ⟨task, h.drawn w hmem htask, hfails⟩
    · exact hbooks.full h.full

/-- **Any order.** -/
theorem Accounts.after (h : Accounts job tasks run) (paced : 1 ≤ job.settings.taskBatchSize)
    (limit : Int) (order : List Nat) :
    Accounts job tasks (run.after job (Results.sink limit) order) := by
  induction order generalizing run with
  | nil => exact h
  | cons i order ih => exact ih (h.stepAt paced limit i)

/-! ## The report -/

/-- What the report of a search says about its logs: only those that cannot be read have failed,
and unless the search was called off or the sink was full, all were dealt with. -/
def IsAccount (job : Job) (tasks : List Task) (results : Results)
    (report : Except Abort Summary) : Prop :=
  ∃ summary, report = .ok summary ∧ summary.total = tasks.length
    ∧ (∀ failure ∈ summary.failures, ∃ task ∈ tasks, task.Fails job failure)
    ∧ (summary.isFull = true → results.isCapped = true)
    ∧ (summary.isFull = false → summary.isCancelled = false →
      summary.completed + summary.failures.length = summary.total)

theorem Accounts.report (h : Accounts job tasks run)
    (hdone : ∀ w ∈ run.workers, w.isDone = true) (workers : Nat) :
    IsAccount job tasks run.progress.sink (run.report tasks.length workers) := by
  have hnone : run.abort? = none := by
    rw [Run.abort?, List.findSome?_eq_none_iff]
    intro w hw
    rcases w with tasks | ⟨source, scan, tasks⟩ | ⟨source, haul, tasks⟩ | tasks | _ | a
    all_goals first
      | rfl
      | cases h.whole _ hw
  rw [Run.report, hnone]
  refine ⟨_, rfl, rfl, ?_, h.full, ?_⟩
  · intro failure hfailure
    exact h.failed failure (Array.mem_toList_iff.mp hfailure)
  · intro hfull hcalled
    rcases h.counted with hup | hsum
    · -- the last look finds the signal up, so the search counts as called off
      have hlook := Progress.look_of_isUp hup
      simp only [hlook, Bool.true_and, Bool.not_eq_false'] at hcalled
      rw [hcalled] at hfull
      cases hfull
    · rw [aheadOf_of_isDone hdone, Nat.add_zero] at hsum
      exact hsum

end Accounts

/-- **The report of any search.** Some workers share the logs and make their steps in some order
until all are done. -/
theorem after_isAccount (job : Job) (limit : Int) (signal : Signal) {tasks : List Task}
    (paced : 1 ≤ job.settings.taskBatchSize) {workers : Nat} (manned : 0 < workers)
    {shs : List (List Task)} (hshares : shares workers tasks = .ok shs) {run : Run Results}
    (reached : ∃ order, run = (Run.ofShares shs signal {}).after job (Results.sink limit) order)
    (hdone : ∀ w ∈ run.workers, w.isDone = true) :
    IsAccount job tasks run.progress.sink (run.report tasks.length workers) := by
  obtain ⟨order, rfl⟩ := reached
  obtain ⟨shs', hshares', hflatten⟩ := exists_shares manned tasks
  obtain rfl : shs' = shs := Except.ok.inj (hshares'.symm.trans hshares)
  have h := (accounts_ofShares job shs' signal).after paced limit order
  rw [hflatten] at h
  exact h.report hdone workers

/-- **The report of the program.** -/
theorem run_isAccount (job : Job) (limit : Int) (signal : Signal) (tasks : List Task)
    (paced : 1 ≤ job.settings.taskBatchSize) :
    IsAccount job tasks (run job (Results.sink limit) signal {} tasks).sink
      (run job (Results.sink limit) signal {} tasks).report := by
  by_cases hempty : tasks = []
  · subst hempty
    rw [run_nil]
    refine ⟨_, rfl, rfl, ?_, ?_, fun _ _ => rfl⟩
    · intro failure hfailure
      simp at hfailure
    · intro hfull
      simp at hfull
  · have manned := workerCount_pos job.environment job.settings tasks.length
    obtain ⟨shs, hshares, -⟩ := exists_shares manned tasks
    rw [run_of_shares job (Results.sink limit) signal {} hempty hshares]
    exact after_isAccount job limit signal paced manned hshares
      ((Run.ofShares shs signal {}).exists_finish_eq_after job (Results.sink limit))
      fun w hw => Run.isDone_of_mem_finishEach job _ hw

end LogSearch.Search
