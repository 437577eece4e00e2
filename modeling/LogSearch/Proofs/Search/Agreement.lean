/-
Searches that are complete agree.

A search may have any number of workers, they may make their steps in any order, and the search
may be called off at any moment. If its report says that it was not called off, and no record was
left out, then no look has found the signal up, and it went the way that it would have gone had
nobody called it off (`Run.after_unraised`). So it found all that its logs hold
(`EndsWhole.perm`), and two such searches differ at most in the order of their records.

Where the logs have different names, the source and the number of a record tell it from all
others, so the order of an export leaves nothing to the order in which the records came.
-/
import LogSearch.Proofs.Export.Order
import LogSearch.Proofs.Record.Partition
import LogSearch.Proofs.Search.Accounting
import LogSearch.Proofs.Search.Interleaving
import Mathlib.Data.List.Nodup

set_option autoImplicit false

namespace LogSearch.Search

/-! ## A signal that was never found up from outside -/

/-- The signal when nothing outside the search raises it. -/
def Signal.unraised (s : Signal) : Signal :=
  { s with raisedAt := none }

/-- Whether no look so far has found the signal up for a reason outside the search. -/
def Signal.Unseen (s : Signal) : Prop :=
  ∀ k, s.raisedAt = some k → s.looks < k

/-- The progress when nothing outside the search raises its signal. -/
def Progress.unraised {σ : Type} (p : Progress σ) : Progress σ :=
  { p with signal := p.signal.unraised }

section Look

variable {σ : Type} {p : Progress σ}

/-- A look that does not find the signal up from outside is the same look without an outside. -/
theorem Progress.look_unraised (h : p.look.2.signal.Unseen) :
    p.signal.Unseen ∧ p.unraised.look.1 = p.look.1 ∧ p.look.2.unraised = p.unraised.look.2 := by
  have hbehind : ∀ k, p.signal.raisedAt = some k → p.signal.looks + 1 < k := h
  have hnot : p.signal.raisedAt.any (· ≤ p.signal.looks + 1) = false := by
    cases hraised : p.signal.raisedAt with
    | none => rfl
    | some k =>
      have := hbehind k hraised
      simp only [Option.any_some, decide_eq_false_iff_not]
      omega
  have hlook : p.unraised.look = (p.look.1, p.look.2.unraised) := by
    simp only [look, Signal.look, unraised, Signal.unraised, hnot, Option.any_none]
  refine ⟨fun k hk => by have := hbehind k hk; omega, ?_⟩
  rw [hlook]
  exact ⟨rfl, rfl⟩

/-- A last look that finds the signal down says the same of all looks before. -/
theorem Progress.unseen_of_look (h : p.look.1 = false) : p.signal.Unseen := by
  intro k hk
  simp only [look, Signal.look, hk, Option.any_some, Bool.or_eq_false_iff,
    decide_eq_false_iff_not] at h
  omega

theorem Progress.handOver_unraised (sink : Sink σ) (source : String) (haul : Haul) :
    p.unraised.handOver sink source haul = (p.handOver sink source haul).unraised := by
  rw [handOver, handOver, deliver, deliver]
  by_cases hempty : haul.records.isEmpty = true
  · rw [if_pos hempty, if_pos hempty]
    rfl
  · rw [if_neg hempty, if_neg hempty]
    by_cases hfull : (sink.accept haul.records.toList p.sink).1 = true
    · simp only [unraised, hfull, if_true, Signal.raise, Signal.unraised]
    · simp only [unraised, hfull]
      rfl

theorem Progress.unseen_of_handOver {sink : Sink σ} {source : String} {haul : Haul}
    (h : (p.handOver sink source haul).signal.Unseen) : p.signal.Unseen := by
  have hlooks : (p.handOver sink source haul).signal.looks = p.signal.looks := by
    rw [handOver, deliver]
    dsimp only
    split
    · rfl
    · dsimp only
      split <;> rfl
  rw [Signal.Unseen, p.handOver_raisedAt, hlooks] at h
  exact h

end Look

/-- If no look has found the signal up from outside by then, a step is one of the same kind
without an outside. -/
theorem Worker.Makes.unraised {σ : Type} {job : Job} {sink : Sink σ} {w next : Worker}
    {p q : Progress σ} (hmakes : Makes job sink p w next q) (h : q.signal.Unseen) :
    p.signal.Unseen ∧ Makes job sink p.unraised w next q.unraised := by
  cases hmakes with
  | ends => exact ⟨h, .ends⟩
  | stops hup =>
    obtain ⟨hbefore, hsame, hlook⟩ := Progress.look_unraised h
    exact ⟨hbefore, hlook ▸ .stops (hsame.trans hup)⟩
  | @skips task tasks e hdown hresolve =>
    have hlooked : p.look.2.signal.Unseen := h
    obtain ⟨hbefore, hsame, hlook⟩ := Progress.look_unraised hlooked
    have hskips : Makes job sink p.unraised (ready (task :: tasks)) (ready tasks)
        (p.unraised.look.2.fail ⟨task.source, e.message⟩) := .skips (hsame.trans hdown) hresolve
    rw [← hlook] at hskips
    exact ⟨hbefore, hskips⟩
  | starts hdown hresolve =>
    obtain ⟨hbefore, hsame, hlook⟩ := Progress.look_unraised h
    exact ⟨hbefore, hlook ▸ .starts (hsame.trans hdown) hresolve⟩
  | cuts hup =>
    obtain ⟨hbefore, hsame, hlook⟩ := Progress.look_unraised h
    exact ⟨hbefore, hlook ▸ .cuts (hsame.trans hup)⟩
  | resumes hdown =>
    obtain ⟨hbefore, hsame, hlook⟩ := Progress.look_unraised h
    exact ⟨hbefore, hlook ▸ .resumes (hsame.trans hdown)⟩
  | handsOver =>
    rw [← Progress.handOver_unraised]
    exact ⟨Progress.unseen_of_handOver h, .handsOver⟩
  | leaves hup =>
    obtain ⟨hbefore, hsame, hlook⟩ := Progress.look_unraised h
    exact ⟨hbefore, hlook ▸ .leaves (hsame.trans hup)⟩
  | breaks hdown hsize =>
    obtain ⟨hbefore, hsame, hlook⟩ := Progress.look_unraised h
    exact ⟨hbefore, hlook ▸ .breaks (hsame.trans hdown) hsize⟩
  | goesOn hdown hsize =>
    obtain ⟨hbefore, hsame, hlook⟩ := Progress.look_unraised h
    exact ⟨hbefore, hlook ▸ .goesOn (hsame.trans hdown) hsize⟩
  | rests => exact ⟨h, .rests⟩
  | fails => exact ⟨h, .fails⟩

/-- **One step.** If no look has found the signal up from outside by then, the step is the same
without an outside. -/
theorem Worker.step_unraised {σ : Type} (job : Job) (sink : Sink σ) (w : Worker) {p : Progress σ}
    (h : (w.step job sink p).2.signal.Unseen) :
    p.signal.Unseen
      ∧ w.step job sink p.unraised
        = ((w.step job sink p).1, (w.step job sink p).2.unraised) := by
  obtain ⟨next, q, hstep, hmakes⟩ := w.step_cases job sink p
  rw [hstep] at h ⊢
  obtain ⟨hbefore, hsame⟩ := hmakes.unraised h
  exact ⟨hbefore, hsame.step_eq⟩

namespace Run

variable {σ : Type} {job : Job} {sink : Sink σ}

/-- The search when nothing outside it raises its signal. -/
def unraised (run : Run σ) : Run σ :=
  ⟨run.workers, run.progress.unraised⟩

theorem stepAt_unraised {run : Run σ} {i : Nat}
    (h : (run.stepAt job sink i).progress.signal.Unseen) :
    run.progress.signal.Unseen
      ∧ run.unraised.stepAt job sink i = (run.stepAt job sink i).unraised := by
  cases hw : run.workers[i]? with
  | none =>
    rw [stepAt_none hw] at h ⊢
    exact ⟨h, stepAt_none hw⟩
  | some w =>
    rw [stepAt_some hw] at h ⊢
    obtain ⟨hbefore, hstep⟩ := w.step_unraised job sink h
    refine ⟨hbefore, ?_⟩
    have hworker : run.unraised.workers[i]? = some w := hw
    rw [stepAt_some hworker, unraised, hstep]
    rfl

/-- **Any order.** A search whose looks have not found the signal up from outside has gone the
way that it goes without an outside. -/
theorem after_unraised {run : Run σ} {order : List Nat}
    (h : (run.after job sink order).progress.signal.Unseen) :
    run.progress.signal.Unseen
      ∧ run.unraised.after job sink order = (run.after job sink order).unraised := by
  induction order generalizing run with
  | nil => exact ⟨h, rfl⟩
  | cons i order ih =>
    obtain ⟨hnext, hrest⟩ := ih h
    obtain ⟨hbefore, hstep⟩ := stepAt_unraised hnext
    refine ⟨hbefore, ?_⟩
    rw [after, List.foldl_cons, hstep]
    exact hrest

end Run

/-! ## Complete searches -/

/-- Whether a search over some logs can end with these results, neither called off nor with
records left out: for some number of workers, some moment at which the search may be called off,
and some order of steps after which all workers are done. -/
def EndsWhole (job : Job) (limit : Int) (tasks : List Task) (results : Results) : Prop :=
  ∃ (workers : Nat) (shs : List (List Task)) (moment : Option Nat) (order : List Nat)
      (run : Run Results) (summary : Summary),
    0 < workers ∧ shares workers tasks = .ok shs
    ∧ run = (Run.ofShares shs { raisedAt := moment } {}).after job (Results.sink limit) order
    ∧ (∀ w ∈ run.workers, w.isDone = true)
    ∧ run.report tasks.length workers = .ok summary ∧ summary.isCancelled = false
    ∧ run.progress.sink = results ∧ results.isCapped = false

/-- A complete search has found what its logs hold, in some order. -/
theorem EndsWhole.perm {job : Job} {limit : Int} {tasks : List Task} {results : Results}
    (paced : 1 ≤ job.settings.taskBatchSize) (h : EndsWhole job limit tasks results) :
    results.records.toList.Perm (tasks.flatMap job.matchesOf) := by
  obtain ⟨workers, shs, moment, order, run, summary, manned, hshares, hrun, hdone, hreport,
    hcalled, rfl, hcapped⟩ := h
  obtain ⟨_, hok, -, -, hfull, -⟩ := after_isAccount job limit { raisedAt := moment } paced manned
    hshares ⟨order, hrun⟩ hdone
  obtain rfl := Except.ok.inj (hreport.symm.trans hok)
  -- the sink is not full, so the last look has found the signal down
  have hnotFull : summary.isFull = false := by
    rw [← Bool.not_eq_true]
    exact fun hyes => by rw [hfull hyes] at hcapped; cases hcapped
  have hlast : run.progress.look.1 = false := by
    rw [Run.report] at hreport
    split at hreport
    · cases hreport
    · obtain rfl := Except.ok.inj hreport
      dsimp only at hcalled hnotFull
      rwa [hnotFull, Bool.not_false, Bool.and_true] at hcalled
  have hunseen := Progress.unseen_of_look hlast
  rw [hrun] at hunseen
  obtain ⟨-, hsame⟩ := Run.after_unraised hunseen
  rw [← hrun] at hsame
  -- so the search has gone the way of one that nothing outside calls off
  obtain ⟨shs', hshares', rfl⟩ := exists_shares manned tasks
  obtain rfl : shs' = shs := Except.ok.inj (hshares'.symm.trans hshares)
  have hsound := (sound_ofShares job limit shs').after paced order
  have hstart : Run.ofShares shs' {} ({} : Results)
      = (Run.ofShares shs' { raisedAt := moment } {}).unraised := rfl
  rw [hstart, hsame] at hsound
  obtain ⟨missing, hperm, hiff⟩ := hsound.isCapped_iff hdone
  have hnone : missing = [] := by
    by_contra hmissing
    have hyes : run.progress.sink.isCapped = true := hiff.mpr hmissing
    rw [hyes] at hcapped
    cases hcapped
  rw [hnone, List.append_nil] at hperm
  exact hperm

/-- A search that nobody calls off is complete if it has left nothing out. -/
theorem endsWhole_of_after {job : Job} {limit : Int} {tasks : List Task} {workers : Nat}
    {shs : List (List Task)} {order : List Nat} {run : Run Results}
    (paced : 1 ≤ job.settings.taskBatchSize) (manned : 0 < workers)
    (hshares : shares workers tasks = .ok shs)
    (hrun : run = (Run.ofShares shs {} {}).after job (Results.sink limit) order)
    (hdone : ∀ w ∈ run.workers, w.isDone = true) (hcapped : run.progress.sink.isCapped = false) :
    EndsWhole job limit tasks run.progress.sink := by
  have hsound := (sound_ofShares job limit shs).after paced order
  rw [← hrun] at hsound
  have hdown : run.progress.signal.isUp = false := by
    rw [hsound.ledger.isUp, ← Bool.not_eq_true]
    exact fun hfull => by rw [(hsound.ledger.full hfull).1] at hcapped; cases hcapped
  obtain ⟨summary, hok, -⟩ :=
    after_isAccount job limit {} paced manned hshares ⟨order, hrun⟩ hdone
  refine ⟨workers, shs, none, order, run, summary, manned, hshares, hrun, hdone, hok, ?_, rfl,
    hcapped⟩
  rw [Run.report] at hok
  split at hok
  · cases hok
  · obtain rfl := Except.ok.inj hok
    rw [Progress.look_of_raisedAt hsound.ledger.raisedAt]
    simp only [hdown, Bool.false_and]

/-- So is the search of the program. -/
theorem run_endsWhole {job : Job} {limit : Int} {tasks : List Task}
    (paced : 1 ≤ job.settings.taskBatchSize)
    (hcapped : (run job (Results.sink limit) {} {} tasks).sink.isCapped = false) :
    EndsWhole job limit tasks (run job (Results.sink limit) {} {} tasks).sink := by
  have manned : 0 < workerCount job.environment job.settings tasks.length := Nat.le_max_left 1 _
  obtain ⟨shs, hshares, hflatten⟩ := exists_shares manned tasks
  by_cases hempty : tasks.isEmpty = true
  · obtain rfl : tasks = [] := List.isEmpty_iff.mp hempty
    rw [run, if_pos hempty]
    have hstay : Run.ofShares [] {} {}
        = (Run.ofShares [] {} {}).after job (Results.sink limit) [] := rfl
    exact endsWhole_of_after paced manned rfl hstay (fun w hw => absurd hw List.not_mem_nil) rfl
  · obtain ⟨order, horder⟩ :=
      (Run.ofShares shs {} {}).exists_finish_eq_after job (Results.sink limit)
    rw [run, if_neg hempty] at hcapped ⊢
    dsimp only at hcapped ⊢
    rw [hshares] at hcapped ⊢
    exact endsWhole_of_after paced manned hshares horder
      (fun w hw => Run.isDone_of_mem_finishEach job _ hw) hcapped

/-! ## What tells records apart -/

/-- The records of a text have its source, and are numbered in their order. -/
theorem of_ofText_getElem? {text source : String} {year : Int} {k : Nat} {record : Record}
    (h : (Record.ofText text source year)[k]? = some record) :
    record.source = source ∧ record.sequence = k := by
  have hbegin : Record.ofText text source year
      = (Record.Assembler.begin source year 0).records (Text.numberedLines text) := rfl
  rw [hbegin, Record.Assembler.records_begin_getElem?_eq_some_iff] at h
  obtain ⟨before, line, after, stamp, -, -, -, -, rfl⟩ := h
  exact ⟨rfl, Nat.zero_add k⟩

theorem Job.exists_of_mem_matchesOf {job : Job} {task : Task} {record : Record}
    (h : record ∈ job.matchesOf task) :
    ∃ text, task.resolve job.environment.hasZstd = .ok text
      ∧ (job.recordsOf task text)[record.sequence]? = some record
      ∧ record.source = task.source := by
  cases hresolve : task.resolve job.environment.hasZstd with
  | error e =>
    rw [matchesOf_of_error hresolve] at h
    cases h
  | ok text =>
    rw [matchesOf_of_resolve hresolve, matchesIn, List.mem_filter] at h
    obtain ⟨k, hk⟩ := List.getElem?_of_mem h.1
    obtain ⟨hsource, rfl⟩ := of_ofText_getElem? hk
    exact ⟨text, rfl, hk, hsource⟩

/-- Where no two logs have one name, source and number tell the records found apart. -/
theorem eq_of_key_eq {job : Job} {tasks : List Task} (distinct : (tasks.map Task.source).Nodup)
    {a b : Record} (ha : a ∈ tasks.flatMap job.matchesOf) (hb : b ∈ tasks.flatMap job.matchesOf)
    (h : Export.key a = Export.key b) : a = b := by
  obtain ⟨-, hrest⟩ := Prod.mk.inj h
  obtain ⟨hsource, hsequence⟩ := Prod.mk.inj hrest
  obtain ⟨task, htask, ha⟩ := List.mem_flatMap.mp ha
  obtain ⟨other, hother, hb⟩ := List.mem_flatMap.mp hb
  obtain ⟨text, hresolve, hat, hname⟩ := Job.exists_of_mem_matchesOf ha
  obtain ⟨text', hresolve', hbt, hname'⟩ := Job.exists_of_mem_matchesOf hb
  obtain rfl : task = other := by
    refine List.inj_on_of_nodup_map distinct htask hother ?_
    rw [← hname, ← hname', hsource]
  obtain rfl : text = text' := Except.ok.inj (hresolve.symm.trans hresolve')
  rw [hsequence, hbt] at hat
  exact (Option.some.inj hat).symm

/-- What a log holds for a search depends on what is looked for and on the surroundings only. -/
theorem Job.matchesOf_congr {job other : Job} (hcriteria : job.criteria = other.criteria)
    (henvironment : job.environment = other.environment) (task : Task) :
    job.matchesOf task = other.matchesOf task := by
  unfold matchesOf matchesIn recordsOf yearOf
  rw [hcriteria, henvironment]

/-! ## Two searches -/

/-- **Complete searches agree.** Let logs have different names, and let two searches look for the
same in them, each with its own settings and limit, its own workers and its own order of steps.
If neither was called off, and neither has left records out, then they have found the same
records, and the texts of their exports are the same. -/
theorem export_of_endsWhole {job other : Job} {limit limit' : Int} {tasks : List Task}
    {results results' : Results} (distinct : (tasks.map Task.source).Nodup)
    (criteria : job.criteria = other.criteria) (environment : job.environment = other.environment)
    (paced : 1 ≤ job.settings.taskBatchSize) (paced' : 1 ≤ other.settings.taskBatchSize)
    (h : EndsWhole job limit tasks results) (h' : EndsWhole other limit' tasks results') :
    results.records.toList.Perm results'.records.toList
      ∧ Export.text results.records.toList = Export.text results'.records.toList := by
  have hfound := h.perm paced
  have hfound' := h'.perm paced'
  have hsame : job.matchesOf = other.matchesOf :=
    funext (Job.matchesOf_congr criteria environment)
  rw [← hsame] at hfound'
  have hperm := hfound.trans hfound'.symm
  refine ⟨hperm, Export.text_eq_of_perm (fun a ha b hb hkey => ?_) hperm⟩
  exact eq_of_key_eq distinct (hfound.mem_iff.mp ha) (hfound.mem_iff.mp hb) hkey

/-- A search for the letter `a` in two logs, with room for all its records. -/
def pairJob : Job where
  criteria := { expression := .keyword "a" }
  settings := {}
  environment := { currentYear := 2031, processors := some 4 }

/-- Two logs whose records are of one time. -/
def pairTasks : List Task :=
  [.text "x" "2024-01-02 03:04:05 a\n", .text "y" "2024-01-02 03:04:05 a\n"]

/-- The search of one worker, to its end. -/
def pairRunOfOne : Run Results :=
  (Run.ofShares [pairTasks] {} {}).after pairJob (Results.sink 9) [0, 0, 0, 0, 0, 0, 0]

/-- The search of two workers, of whom the second is the first to hand over. -/
def pairRunOfTwo : Run Results :=
  (Run.ofShares [pairTasks.take 1, pairTasks.drop 1] {} {}).after pairJob (Results.sink 9)
    [0, 1, 1, 0, 1, 1, 0, 0]

/-- Two searches that find two records of one time in different orders. -/
theorem export_of_endsWhole_pairTasks :
    (pairTasks.map Task.source).Nodup ∧ 1 ≤ pairJob.settings.taskBatchSize
      ∧ EndsWhole pairJob 9 pairTasks pairRunOfOne.progress.sink
      ∧ EndsWhole pairJob 9 pairTasks pairRunOfTwo.progress.sink
      ∧ pairRunOfOne.progress.sink.records ≠ pairRunOfTwo.progress.sink.records
      ∧ Export.text pairRunOfOne.progress.sink.records.toList
        = Export.text pairRunOfTwo.progress.sink.records.toList := by
  have hshareOfOne : shares ((1 : Nat) : Int) pairTasks = .ok [pairTasks] := by cbv
  have hsharesOfTwo : shares ((2 : Nat) : Int) pairTasks
      = .ok [pairTasks.take 1, pairTasks.drop 1] := by cbv
  have hone : EndsWhole pairJob 9 pairTasks pairRunOfOne.progress.sink :=
    endsWhole_of_after (by decide) (by decide) hshareOfOne rfl (by decide +kernel)
      (by decide +kernel)
  have htwo : EndsWhole pairJob 9 pairTasks pairRunOfTwo.progress.sink :=
    endsWhole_of_after (by decide) (by decide) hsharesOfTwo rfl (by decide +kernel)
      (by decide +kernel)
  refine ⟨by decide, by decide, hone, htwo, by decide +kernel, ?_⟩
  exact (export_of_endsWhole (by decide) rfl rfl (by decide) (by decide) hone htwo).2

end LogSearch.Search
