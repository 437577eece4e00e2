/-
What it takes for a ready source to be found.

A source is ready if each of its logs has a range, and a log has a range if some line near its
start and some line near its end has a time, wherever in the line. A search, however, only sees
records, and these begin at lines with a timestamp at their start. So a ready log has dated
lines, but whether any search finds anything in it hangs on one of them opening a record.
-/
import LogSearch.Proofs.Record.Coverage
import LogSearch.Proofs.Record.Dating
import LogSearch.Proofs.Search.Scanning
import LogSearch.Proofs.Workspace.Leaves

set_option autoImplicit false

namespace LogSearch.Ingest

open Search (Job Task)
open Workspace (tasksOf)

variable {env : Environment} {window : Int}

/-! ## Loading -/

/-- What loading has found in a log: a text with a range. -/
def IsDated (env : Environment) (window : Int) (task : Task) : Prop :=
  ∃ text range, task.resolve env.hasZstd = .ok text
    ∧ TimeRange.ofText (Timestamp.fallbackYear env.currentYear (some task.name) none) window text
      = some range

/-- What holds of the logs of every source that loading comes to: each is dated, and a ready
source has one. -/
structure IsLoaded (env : Environment) (window : Int) (source : Source) : Prop where
  isDated : ∀ task ∈ tasksOf source, IsDated env window task
  isNamed : ∀ task ∈ tasksOf source, task.source = task.name
  ne_nil : source.isReady = true → tasksOf source ≠ []

theorem isLoaded_of_ofFile {origin : Origin} {name : String} {data : Bytes} {source : Source}
    (h : ofFile env window origin name data = .ok source) : IsLoaded env window source := by
  -- each task is that of a leaf, and the leaf was read when the source was loaded
  have htask : ∀ task ∈ tasksOf source, ∃ range log text,
      Workspace.IsReadAgain env window (task, range) log text := by
    intro task htask
    rw [← Workspace.map_fst_leavesOf] at htask
    obtain ⟨leaf, hleaf, rfl⟩ := List.mem_map.mp htask
    obtain ⟨log, -, text, hread⟩ := Workspace.exists_log_of_mem_leavesOf h hleaf
    exact ⟨leaf.2, log, text, hread⟩
  constructor
  · intro task hmem
    obtain ⟨range, log, text, hread⟩ := htask task hmem
    refine ⟨text, range, hread.resolved, ?_⟩
    rw [hread.name]
    exact (rangeOfText_eq_ok_iff.mp hread.dated).2
  · intro task hmem
    obtain ⟨range, log, text, hread⟩ := htask task hmem
    rw [hread.source, hread.name]
  · intro hready hnone
    rw [← Workspace.map_fst_leavesOf, List.map_eq_nil_iff] at hnone
    exact (Workspace.isReady_iff_leavesOf h).mp hready hnone

/-! ## Searching -/

/-- Where a log is searched, its name gives the year as it did when it was loaded. -/
theorem yearFor_eq (currentYear : Nat) {task : Task} (h : task.source = task.name) :
    Timestamp.yearFor currentYear task.source (some task.name) none
      = Timestamp.fallbackYear currentYear (some task.name) none := by
  unfold Timestamp.yearFor
  rw [h]
  split
  · rename_i hnone
    cases hnone
  · rename_i hempty
    rw [Option.some.inj hempty]
  · rename_i hsome
    rw [Option.some.inj hsome]

/-- A condition that holds of every content. -/
def anything : Query.Expr :=
  .any [.keyword "a", .not (.keyword "a")]

/-- A search for everything at any time. -/
def searchAll (env : Environment) : Job where
  criteria := { expression := anything }
  settings := {}
  environment := env

theorem searchAll_accept (env : Environment) (record : Record) :
    (searchAll env).criteria.accept record = true := by
  have hanything : anything.holdsFor record.content = true := by
    unfold Query.Expr.holdsFor anything
    simp only [Query.Expr.holdsInLowered, Query.Expr.anyHolds, Bool.or_false, Bool.or_not_self]
  unfold Search.Criteria.accept
  rw [Bool.and_eq_true]
  exact ⟨rfl, hanything⟩

/-- Some search finds something in a log exactly if the log has records. -/
theorem exists_matchesOf_ne_nil_iff {task : Task} {text : String}
    (h : task.resolve env.hasZstd = .ok text) :
    (∃ job : Job, job.environment = env ∧ job.matchesOf task ≠ [])
      ↔ Record.ofText text task.source
        (Timestamp.yearFor env.currentYear task.source (some task.name) none).year ≠ [] := by
  constructor
  · rintro ⟨job, rfl, hmatches⟩ hnone
    have hempty : job.recordsOf task text = [] := hnone
    rw [Job.matchesOf_of_resolve h, Job.matchesIn, hempty] at hmatches
    exact hmatches rfl
  · intro hrecords
    have hresolve : task.resolve (searchAll env).environment.hasZstd = .ok text := h
    refine ⟨searchAll env, rfl, ?_⟩
    rw [Job.matchesOf_of_resolve hresolve, Job.matchesIn,
      List.filter_eq_self.mpr fun record _ => searchAll_accept env record]
    exact hrecords

/-- A log has records exactly if one of its dated lines has a timestamp at its start. -/
theorem ofText_ne_nil_iff {text source : String} {year : Int} :
    Record.ofText text source year ≠ []
      ↔ ∃ line ∈ Text.numberedLines text, (Timestamp.date? year line.2).isSome = true
        ∧ ∃ s : Timestamp.Spelling, s.Opens line.2.toList := by
  have hlength : (Record.ofText text source year).length
      = ((Text.numberedLines text).filter (Record.opens year)).length :=
    Record.Assembler.length_records_begin (Text.numberedLines text)
  rw [← List.length_pos_iff, hlength, List.length_pos_iff_exists_mem]
  simp only [List.mem_filter, Record.opens, Bool.and_eq_true, Timestamp.startsRecord_iff]
  constructor
  · rintro ⟨line, hline, hopens, hdate⟩
    exact ⟨line, hline, hdate, hopens⟩
  · rintro ⟨line, hline, hdate, hopens⟩
    exact ⟨line, hline, hopens, hdate⟩

/-- A text with a range has a line with a time. -/
theorem exists_dated_line {text : String} {fallback : Timestamp.FallbackYear} {range : TimeRange}
    (h : TimeRange.ofText fallback window text = some range) :
    ∃ line ∈ Text.numberedLines text, (Timestamp.date? fallback.year line.2).isSome = true := by
  obtain ⟨front, back, yearSource, hfront, -, -⟩ := TimeRange.exists_of_ofText_eq_some h
  obtain ⟨line, hline, htime⟩ := List.mem_filterMap.mp (List.mem_of_head? hfront)
  obtain ⟨stamp, hdate, -⟩ := Option.map_eq_some_iff.mp htime
  exact ⟨line, hline, Option.isSome_iff_exists.mpr ⟨stamp, hdate⟩⟩

/-- **What can be found in a ready source.** A ready source has logs, and each of them can be
read and has a line with a time in it. It has a record, so that some search finds something in
it, exactly if such a line has its timestamp at the start; otherwise no search does. -/
theorem ofFile_ready {origin : Origin} {name : String} {data : Bytes} {source : Source}
    (hload : ofFile env window origin name data = .ok source) (hready : source.isReady = true) :
    tasksOf source ≠ [] ∧ ∀ task ∈ tasksOf source, ∃ text,
      task.resolve env.hasZstd = .ok text
      ∧ let year := (Timestamp.yearFor env.currentYear task.source (some task.name) none).year
        let lines := Text.numberedLines text
        let records := Record.ofText text task.source year
        (∃ line ∈ lines, (Timestamp.date? year line.2).isSome = true)
        ∧ (records ≠ [] ↔ ∃ line ∈ lines, (Timestamp.date? year line.2).isSome = true
          ∧ ∃ s : Timestamp.Spelling, s.Opens line.2.toList)
        ∧ ((∃ job : Job, job.environment = env ∧ job.matchesOf task ≠ []) ↔ records ≠ []) := by
  have hloaded := isLoaded_of_ofFile hload
  refine ⟨hloaded.ne_nil hready, fun task htask => ?_⟩
  obtain ⟨text, range, hresolve, hrange⟩ := hloaded.isDated task htask
  -- The range was found with the year that the search uses.
  have hyear := yearFor_eq env.currentYear (hloaded.isNamed task htask)
  refine ⟨text, hresolve, ?_, ofText_ne_nil_iff, exists_matchesOf_ne_nil_iff hresolve⟩
  rw [hyear]
  exact exists_dated_line hrange

/-- A log of a date in a message and a line with a prefix, whose year is in the name of the file. -/
theorem ofFile_ready_prefixedLine :
    let env : Environment := { currentYear := 2026, processors := none }
    let name := "a-20240102.log"
    let data := Text.encodeUtf8 "booted 2024-01-02 03:04:05\nI0102 03:04:06.500 up"
    ∃ source, ofFile env 1000 .user name data = .ok source ∧ source.isReady = true
      ∧ ∃ task ∈ tasksOf source, ∃ job : Job, job.environment = env ∧ job.matchesOf task ≠ [] := by
  intro env name data
  let source : Source := ⟨name, 48, .log data
    ⟨⟨⟨2024, 1, 2, by decide⟩, 3, 4, 5, 0, by decide⟩,
      ⟨⟨2024, 1, 2, by decide⟩, 3, 4, 6, 500000, by decide⟩, .filename, by decide⟩, []⟩
  have hload : (ofFile env 1000 .user name data).toOption = some source := by decide +kernel
  have hdecode : ((Task.file name data).resolve env.hasZstd).toOption
      = some "booted 2024-01-02 03:04:05\nI0102 03:04:06.500 up" := by decide +kernel
  have hfile := eq_ok_of_toOption_eq_some hload
  have htask : Task.file name data ∈ tasksOf source := List.mem_cons_self
  obtain ⟨text, hresolve, -, -, hfound⟩ := (ofFile_ready hfile rfl).2 _ htask
  rw [eq_ok_of_toOption_eq_some hdecode] at hresolve
  cases hresolve
  exact ⟨source, hfile, rfl, _, htask, hfound.mpr (by decide +kernel)⟩

/-- A log whose only date stands behind a word is ready, and no search finds anything in it. -/
theorem ready_without_records :
    let env : Environment := { currentYear := 2026, processors := none }
    let data := Text.encodeUtf8 "INFO 2024-01-02 03:04:05 late"
    ∃ source, ofFile env 1000 .user "a.log" data = .ok source ∧ source.isReady = true
      ∧ ∃ task ∈ tasksOf source, ∃ text, task.resolve env.hasZstd = .ok text
        ∧ Record.ofText text task.source
          (Timestamp.yearFor env.currentYear task.source (some task.name) none).year = []
        ∧ ∀ job : Job, job.environment = env → job.matchesOf task = [] := by
  intro env data
  let source : Source := ⟨"a.log", 29, .log data
    ⟨⟨⟨2024, 1, 2, by decide⟩, 3, 4, 5, 0, by decide⟩,
      ⟨⟨2024, 1, 2, by decide⟩, 3, 4, 5, 0, by decide⟩, .none, by decide⟩, []⟩
  have hload : (ofFile env 1000 .user "a.log" data).toOption = some source := by decide +kernel
  have hresolve : ((Task.file "a.log" data).resolve env.hasZstd).toOption
      = some "INFO 2024-01-02 03:04:05 late" := by decide +kernel
  have hrecords : Record.ofText "INFO 2024-01-02 03:04:05 late" "a.log"
      (Timestamp.yearFor env.currentYear "a.log" (some "a.log") none).year = [] := by decide +kernel
  refine ⟨source, eq_ok_of_toOption_eq_some hload, rfl, _, List.mem_cons_self, _,
    eq_ok_of_toOption_eq_some hresolve, hrecords, fun job hjob => ?_⟩
  refine Classical.byContradiction fun hmatches => ?_
  exact (exists_matchesOf_ne_nil_iff (eq_ok_of_toOption_eq_some hresolve)).mp ⟨job, hjob, hmatches⟩ hrecords

end LogSearch.Ingest
