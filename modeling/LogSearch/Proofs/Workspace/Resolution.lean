/-
What searches read is what loading has read.

A log is unpacked twice: when it is loaded, to find its range, and when its turn comes in a
search. Both times the same bytes are unpacked under the same name, so both times the same text
comes of them (`exists_log_of_mem_leavesOf`). Loading keeps only logs with a text in which it has
found a range. So no search over a workspace has a failure to report, and one that is neither cut
short nor called off hands over every log (`tasks_resolve`).
-/
import LogSearch.Proofs.Archive.RoundTrip
import LogSearch.Proofs.Ingest.Readiness
import LogSearch.Proofs.Search.Accounting
import LogSearch.Proofs.Workspace.Leaves

set_option autoImplicit false

namespace LogSearch.Workspace

open Search (Abort Job Results Run Signal Summary Task shares run)

/-- Each task is that of a leaf, and each leaf a log that was loaded. -/
theorem exists_load_of_mem_tasks {window : Int} {history : List (Environment × Operation)}
    {task : Task} (h : task ∈ (after window {} history).tasks) :
    ∃ range, (task, range) ∈ (after window {} history).leaves
      ∧ ∃ env origin name data, (env, Operation.load origin name data) ∈ history
        ∧ ∃ log ∈ Ingest.logsOf env.hasZstd origin name data, ∃ text,
          IsReadAgain env window (task, range) log text := by
  rw [← map_fst_leaves] at h
  obtain ⟨leaf, hmem, rfl⟩ := List.mem_map.mp h
  obtain ⟨source, hsource, hleaf⟩ := List.mem_flatMap.mp hmem
  obtain ⟨env, origin, name, data, hdone, hload⟩ :=
    exists_load_of_mem_held (mem_readySources_iff.mp hsource).1
  exact ⟨leaf.2, hmem, env, origin, name, data, hdone, exists_log_of_mem_leavesOf hload hleaf⟩

/-- What a search over logs that can all be read reports: no failures, and if it is neither cut
short nor called off, every log. -/
def IsUnfailing (total : Nat) (results : Results) (report : Except Abort Summary) : Prop :=
  ∃ summary, report = .ok summary ∧ summary.failures = [] ∧ summary.total = total
    ∧ (results.isCapped = false → summary.isCancelled = false →
      summary.completed = summary.total)

theorem IsUnfailing.of_isAccount {job : Job} {tasks : List Task} {results : Results}
    {report : Except Abort Summary} (h : Search.IsAccount job tasks results report)
    (hread : ∀ task ∈ tasks, ∃ text, task.resolve job.environment.hasZstd = .ok text) :
    IsUnfailing tasks.length results report := by
  obtain ⟨summary, hreport, htotal, hfailed, hfull, hcounted⟩ := h
  have hnone : summary.failures = [] := by
    refine List.eq_nil_iff_forall_not_mem.mpr fun failure hfailure => ?_
    obtain ⟨task, htask, e, herror, -⟩ := hfailed failure hfailure
    obtain ⟨text, hok⟩ := hread task htask
    rw [hok] at herror
    cases herror
  refine ⟨summary, hreport, hnone, htotal, fun hcapped hcalled => ?_⟩
  have hroom : summary.isFull = false := by
    rw [← Bool.not_eq_true]
    intro h
    rw [hfull h] at hcapped
    cases hcapped
  rw [← hcounted hroom hcalled, hnone, List.length_nil, Nat.add_zero]

/-- **Searches read what loading has read.** After any history, with one way to read Zstandard
files throughout, each task is a log that was loaded. It resolves to the text in which loading has
found a range, which is not empty, and guesses years by the same name. So any search reports no
failures, with any number of workers, in any order of their steps and whenever it is called off;
and if it is neither cut short nor called off, every log was handed over. -/
theorem tasks_resolve (hasZstd : Bool) (window : Int) (history : List (Environment × Operation))
    (same : ∀ done ∈ history, done.1.hasZstd = hasZstd) :
    let w := after window {} history
    (∀ task ∈ w.tasks, ∃ env origin name data log text range,
      (env, Operation.load origin name data) ∈ history
      ∧ log ∈ Ingest.logsOf hasZstd origin name data
      ∧ Payload.decode hasZstd log.1 log.2 = .ok text
      ∧ Ingest.rangeOfText env window log.1 text = .ok range ∧ (task, range) ∈ w.leaves
      ∧ task.resolve hasZstd = .ok text ∧ text ≠ "" ∧ task.name = log.1
      ∧ ∀ currentYear, Timestamp.yearFor currentYear task.source (some task.name) none
        = Timestamp.fallbackYear currentYear (some log.1) none)
    ∧ ∀ (job : Job) (limit : Int) (signal : Signal), job.environment.hasZstd = hasZstd →
      1 ≤ job.settings.taskBatchSize →
      IsUnfailing w.tasks.length (run job (Results.sink limit) signal {} w.tasks).sink
        (run job (Results.sink limit) signal {} w.tasks).report
      ∧ ∀ (workers : Nat) (shs : List (List Task)) (order : List Nat), 0 < workers →
        shares workers w.tasks = .ok shs →
        let ended := (Run.ofShares shs signal {}).after job (Results.sink limit) order
        (∀ worker ∈ ended.workers, worker.isDone = true) →
          IsUnfailing w.tasks.length ended.progress.sink (ended.report w.tasks.length workers) := by
  intro w
  refine ⟨?_, ?_⟩
  · intro task htask
    obtain ⟨range, hmem, env, origin, name, data, hdone, log, hlog, text, hread⟩ :=
      exists_load_of_mem_tasks htask
    obtain rfl : env.hasZstd = hasZstd := same _ hdone
    refine ⟨env, origin, name, data, log, text, range, hdone, hlog, hread.decoded, hread.dated,
      hmem, hread.resolved, hread.ne_empty, hread.name, fun currentYear => ?_⟩
    rw [Ingest.yearFor_eq currentYear (hread.source.trans hread.name.symm), hread.name]
  · intro job limit signal hzstd paced
    -- as all tasks can be read, none of those that a search accounts for has failed
    have hresolve : ∀ task ∈ w.tasks, ∃ text,
        task.resolve job.environment.hasZstd = .ok text := by
      intro task htask
      obtain ⟨range, -, env, origin, name, data, hdone, log, -, text, hread⟩ :=
        exists_load_of_mem_tasks htask
      have henv : env.hasZstd = hasZstd := same _ hdone
      exact ⟨text, by rw [hzstd, ← henv]; exact hread.resolved⟩
    refine ⟨.of_isAccount (Search.run_isAccount job limit signal w.tasks paced) hresolve, ?_⟩
    intro workers shs order manned hshares ended hdone
    refine .of_isAccount ?_ hresolve
    exact Search.after_isAccount job limit signal paced manned hshares ⟨order, rfl⟩ hdone

/-- A log of the user and one in a bundle from a server are both found again. -/
theorem tasks_resolve_twoSources :
    let env : Environment := { currentYear := 2026, processors := none }
    let data := Text.encodeUtf8 "2024-01-02 03:04:05 up"
    let bundle := Archive.write [.plain 0x30 { text := "" } { text := "b.log" } data]
    let history : List (Environment × Operation) :=
      [(env, .add "a.log" data), (env, .setRemote "logs" bundle)]
    let tasks := (after 1000 {} history).tasks
    let ending := run (Ingest.searchAll env) (Results.sink 10) {} {} tasks
    (∀ done ∈ history, done.1.hasZstd = true) ∧ tasks.length = 2
      ∧ (∀ task ∈ tasks, ∃ text, task.resolve true = .ok text ∧ text ≠ "")
      ∧ IsUnfailing 2 ending.sink ending.report := by
  intro env data bundle history tasks ending
  have same : ∀ done ∈ history, done.1.hasZstd = true := by
    simp [history, env]
  have hlength : tasks.length = 2 := by decide +kernel
  obtain ⟨hread, hsearch⟩ := tasks_resolve true 1000 history same
  obtain ⟨hend, -⟩ := hsearch (Ingest.searchAll env) 10 {} rfl (by decide)
  refine ⟨same, hlength, ?_, ?_⟩
  · intro task htask
    obtain ⟨-, -, -, -, -, text, -, -, -, -, -, -, hresolve, hfilled, -⟩ := hread task htask
    exact ⟨text, hresolve, hfilled⟩
  · rw [← hlength]
    exact hend

end LogSearch.Workspace
