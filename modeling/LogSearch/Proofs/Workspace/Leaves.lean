/-
The leaves of a workspace.

A leaf is a log that can be searched, as a task and with its range. What a workspace is asked for
is told by its leaves: what there is to search are their tasks, the time that all sources span is
the merge of their ranges, and there is something to search exactly if there is a leaf
(`after_consistent`). For one source this holds because loading sets its range, its logs and its
state together; for all sources it follows because ranges may be merged in groups.
-/
import LogSearch.Proofs.Workspace.History
import Mathlib.Data.List.Basic

set_option autoImplicit false

namespace LogSearch

open Search (Task)

namespace Workspace

/-! ## One source -/

/-- The logs of a source that can be searched, with their ranges. -/
def leavesOf (source : Source) : List (Task × TimeRange) :=
  match source.contents with
  | .log data range => [(.file source.name data, range)]
  | .bundle subFiles _ =>
    subFiles.map fun subFile => (.entry subFile.entry.name subFile.entry, subFile.range)
  | .unusable _ _ => []

theorem map_fst_leavesOf (source : Source) : (leavesOf source).map (·.1) = tasksOf source := by
  unfold leavesOf tasksOf
  cases source.contents with
  | log data range => rfl
  | bundle subFiles range => exact List.map_map
  | unusable isBundle reason => rfl

/-- The leaves of a bundle are what was kept of the logs in it. -/
theorem leavesOf_bundleSource (env : Environment) (window : Int) (name : String) (size : Nat)
    (logs : List Archive.Entry) (warnings : List Archive.Warning) :
    leavesOf (Ingest.bundleSource env window name size logs warnings)
      = (logs.filterMap (Ingest.subFile? env window)).map fun subFile =>
        (.entry subFile.entry.name subFile.entry, subFile.range) := by
  unfold Ingest.bundleSource leavesOf
  cases hmerge : TimeRange.merge
      ((logs.filterMap (Ingest.subFile? env window)).map (·.range)) with
  | some range => rfl
  | none =>
    rw [List.map_eq_nil_iff.mp (TimeRange.merge_eq_none_iff.mp hmerge)]
    rfl

/-- What holds of every source that loading comes to. It is ready exactly if it has a range and a
leaf. If it is not ready it says why, and holds nothing. The range of a bundle is the least that
covers those of its logs. -/
structure IsWellFormed (source : Source) : Prop where
  settled : source.status = "ready" ∨ source.status = "error"
  ready_iff : source.status = "ready" ↔ source.range? ≠ none ∧ leavesOf source ≠ []
  explained : source.status = "error" → (∃ reason, source.error? = some reason ∧ reason ≠ "")
    ∧ source.range? = none ∧ source.subFiles = []
  least : source.status = "ready" → source.isBundle = true →
    ∃ range, source.range? = some range
      ∧ TimeRange.IsLeastCover (source.subFiles.map (·.range)) range

theorem status_eq_ready_iff {source : Source} :
    source.status = "ready" ↔ source.isReady = true := by
  unfold Source.status
  cases source.isReady <;> simp

theorem status_eq_error_iff {source : Source} :
    source.status = "error" ↔ source.isReady = false := by
  unfold Source.status
  cases source.isReady <;> simp

section Loaded

variable {env : Environment} {window : Int} {origin : Ingest.Origin} {name : String} {data : Bytes}
  {source : Source}

/-- Loading gives every source the merge of the ranges of its leaves. -/
theorem range?_eq_merge_leavesOf
    (h : Ingest.ofFile env window origin name data = .ok source) :
    source.range? = TimeRange.merge ((leavesOf source).map (·.2)) := by
  rcases Ingest.ofFile_cases h with ⟨range, -, -, rfl⟩ | ⟨reason, -, -, rfl⟩
    | ⟨bundle, reading, -, -, rfl⟩ | ⟨f, -, rfl⟩
  · rfl
  · rfl
  · rw [leavesOf_bundleSource, List.map_map, Ingest.range?_bundleSource]
    rfl
  · rfl

theorem isReady_iff_range? : source.isReady = true ↔ source.range? ≠ none := by
  unfold Source.isReady Source.range?
  cases source.contents <;> simp

theorem isReady_iff_leavesOf (h : Ingest.ofFile env window origin name data = .ok source) :
    source.isReady = true ↔ leavesOf source ≠ [] := by
  rw [isReady_iff_range?, range?_eq_merge_leavesOf h, Ne, TimeRange.merge_eq_none_iff,
    List.map_eq_nil_iff]

theorem isWellFormed_of_ofFile (h : Ingest.ofFile env window origin name data = .ok source) :
    IsWellFormed source where
  settled := by
    rw [status_eq_ready_iff, status_eq_error_iff]
    cases source.isReady <;> simp
  ready_iff := by
    rw [status_eq_ready_iff, ← isReady_iff_range?, ← isReady_iff_leavesOf h, and_self]
  explained := by
    intro hstatus
    refine ⟨?_, ?_, ?_⟩
    · rcases Ingest.status_of_ofFile h with ⟨hready, -⟩ | ⟨-, hreason⟩
      · rw [hready] at hstatus
        exact absurd hstatus (by simp)
      · exact hreason
    all_goals
      rw [status_eq_error_iff] at hstatus
      unfold Source.isReady at hstatus
      split at hstatus
      · rename_i hcontents
        simp [Source.range?, Source.subFiles, hcontents]
      · cases hstatus
  least := by
    intro hstatus hbundle
    obtain ⟨range, hrange⟩ :=
      Option.ne_none_iff_exists'.mp (isReady_iff_range?.mp (status_eq_ready_iff.mp hstatus))
    have hmerge : TimeRange.merge ((leavesOf source).map (·.2)) = some range := by
      rw [← range?_eq_merge_leavesOf h, hrange]
    -- only of a bundle the leaves are its logs
    have hleaves : (leavesOf source).map (·.2) = source.subFiles.map (·.range) := by
      unfold leavesOf Source.subFiles
      cases hcontents : source.contents with
      | log data range => simp [Source.isBundle, hcontents] at hbundle
      | bundle subFiles range => exact List.map_map
      | unusable isBundle reason => rfl
    rw [hleaves] at hmerge
    exact ⟨range, hrange, TimeRange.isLeastCover_merge hmerge⟩

/-- That the leaf is a log which loading has read: its range was found in the text of the log, and
the task resolves to this text under the same name. -/
structure IsReadAgain (env : Environment) (window : Int) (leaf : Task × TimeRange)
    (log : String × Bytes) (text : String) : Prop where
  decoded : Payload.decode env.hasZstd log.1 log.2 = .ok text
  dated : Ingest.rangeOfText env window log.1 text = .ok leaf.2
  resolved : leaf.1.resolve env.hasZstd = .ok text
  source : leaf.1.source = log.1
  name : leaf.1.name = log.1

theorem IsReadAgain.ne_empty {env : Environment} {window : Int} {leaf : Task × TimeRange}
    {log : String × Bytes} {text : String} (h : IsReadAgain env window leaf log text) :
    text ≠ "" :=
  (Ingest.rangeOfText_eq_ok_iff.mp h.dated).1

/-- **Each leaf is a log that was loaded.** -/
theorem exists_log_of_mem_leavesOf
    (h : Ingest.ofFile env window origin name data = .ok source) {leaf : Task × TimeRange}
    (hleaf : leaf ∈ leavesOf source) :
    ∃ log ∈ Ingest.logsOf env.hasZstd origin name data, ∃ text,
      IsReadAgain env window leaf log text := by
  rcases Ingest.ofFile_cases h with ⟨range, hbundle, hrange, rfl⟩ | ⟨reason, -, -, rfl⟩
    | ⟨bundle, reading, hbundle, hread, rfl⟩ | ⟨f, -, rfl⟩
  · obtain ⟨text, hdecode, htext⟩ := Ingest.exists_text_of_rangeOfLog hrange
    rw [List.mem_singleton.mp hleaf]
    refine ⟨(name, data), ?_, text, hdecode, htext, hdecode, rfl, rfl⟩
    rw [Ingest.logsOf, hbundle]
    exact List.mem_cons_self
  · cases hleaf
  · rw [leavesOf_bundleSource] at hleaf
    obtain ⟨subFile, hsubFile, rfl⟩ := List.mem_map.mp hleaf
    obtain ⟨entry, hentry, hsome⟩ := List.mem_filterMap.mp hsubFile
    obtain ⟨rfl, hrange⟩ := Ingest.subFile?_eq_some_iff.mp hsome
    obtain ⟨text, hdecode, htext⟩ := Ingest.exists_text_of_rangeOfLog hrange
    refine ⟨(subFile.entry.name, subFile.entry.data), ?_, text, hdecode, htext, hdecode, rfl, rfl⟩
    rw [Ingest.logsOf, hbundle]
    dsimp only
    rw [hread]
    exact List.mem_map.mpr ⟨subFile.entry, hentry, rfl⟩
  · cases hleaf

end Loaded

/-! ## All sources -/

/-- The leaves of all sources, in the order of the search. -/
def leaves (w : Workspace) : List (Task × TimeRange) :=
  w.readySources.flatMap leavesOf

theorem mem_readySources_iff {w : Workspace} {source : Source} :
    source ∈ w.readySources ↔ source ∈ w.held ∧ source.isReady = true := by
  simp only [readySources, readyFiles, held, List.mem_append, List.mem_filter, or_and_right]

/-- What is not ready has no tasks. -/
theorem tasks_eq (w : Workspace) : w.tasks = w.held.flatMap tasksOf := by
  have hnone : ∀ source : Source, source.isReady = false → tasksOf source = [] := by
    intro source h
    unfold Source.isReady at h
    unfold tasksOf
    split at h
    · rename_i hcontents
      rw [hcontents]
    · cases h
  have hready : ∀ sources : List Source,
      (sources.filter (·.isReady)).flatMap tasksOf = sources.flatMap tasksOf := by
    intro sources
    induction sources with
    | nil => rfl
    | cons source sources ih =>
      rw [List.filter_cons, List.flatMap_cons]
      split
      · rw [List.flatMap_cons, ih]
      · rename_i h
        rw [hnone source (Bool.eq_false_iff.mpr h), List.nil_append, ih]
  rw [tasks, readySources, readyFiles, held, List.flatMap_append, List.flatMap_append, hready,
    hready]

/-- What is not ready has no range. -/
theorem range?_eq (w : Workspace) : w.range? = TimeRange.merge (w.held.filterMap (·.range?)) := by
  have hready : ∀ sources : List Source,
      (sources.filter (·.isReady)).filterMap (·.range?) = sources.filterMap (·.range?) := by
    intro sources
    rw [List.filterMap_filter]
    refine List.filterMap_congr fun source _ => ?_
    split
    · rfl
    · rename_i h
      rw [isReady_iff_range?, Classical.not_not] at h
      exact h.symm
  rw [range?, readySources, readyFiles, held, List.filterMap_append, List.filterMap_append, hready,
    hready]

theorem map_fst_leaves (w : Workspace) : w.leaves.map (·.1) = w.tasks := by
  simp only [leaves, tasks, List.map_flatMap, map_fst_leavesOf]

variable {window : Int} {history : List (Environment × Operation)}

/-- Whatever was done, the span of all sources is that of all leaves. -/
theorem range?_after :
    (after window {} history).range?
      = TimeRange.merge ((after window {} history).leaves.map (·.2)) := by
  have hrange : ∀ source ∈ (after window {} history).readySources,
      source.range? = TimeRange.merge ((leavesOf source).map (·.2)) := by
    intro source hsource
    obtain ⟨env, origin, name, data, -, hload⟩ :=
      exists_load_of_mem_held (mem_readySources_iff.mp hsource).1
    exact range?_eq_merge_leavesOf hload
  -- the sources are groups of leaves
  rw [range?, List.filterMap_congr hrange, leaves, List.map_flatMap, List.flatMap_def,
    ← TimeRange.merge_filterMap_merge, List.filterMap_map]
  rfl

/-- There is something to search exactly if there is a leaf. -/
theorem hasSources_after_iff :
    (after window {} history).hasSources = true ↔ (after window {} history).leaves ≠ [] := by
  have hhas : (after window {} history).hasSources = true
      ↔ ∃ source, source ∈ (after window {} history).readySources := by
    rw [hasSources, Bool.not_eq_true', List.isEmpty_eq_false_iff_exists_mem]
  rw [hhas, leaves, Ne, List.flatMap_eq_nil_iff]
  constructor
  · rintro ⟨source, hsource⟩ hnone
    obtain ⟨hheld, hready⟩ := mem_readySources_iff.mp hsource
    obtain ⟨env, origin, name, data, -, hload⟩ := exists_load_of_mem_held hheld
    exact (isReady_iff_leavesOf hload).mp hready (hnone source hsource)
  · intro h
    refine Classical.byContradiction fun hnone => h fun source hsource => ?_
    exact absurd ⟨source, hsource⟩ hnone

/-- **What holds after any history.** Every source is well-formed; there is something to search
exactly if there are tasks, and exactly if the workspace has a range; the range is the merge of
the ranges of all tasks; and whatever fails leaves everything as it is. -/
theorem after_consistent (window : Int) (history : List (Environment × Operation)) :
    let w := after window {} history
    (∀ source ∈ w.held, IsWellFormed source)
      ∧ (w.hasSources = true ↔ w.tasks ≠ [])
      ∧ (w.hasSources = true ↔ w.range? ≠ none)
      ∧ w.leaves.map (·.1) = w.tasks
      ∧ w.range? = TimeRange.merge (w.leaves.map (·.2))
      ∧ ∀ env op e, (w.perform env window op).1 = .error e → (w.perform env window op).2 = w := by
  intro w
  refine ⟨?_, ?_, ?_, w.map_fst_leaves, range?_after, fun env op e => perform_of_error⟩
  · intro source hsource
    obtain ⟨env, origin, name, data, -, hload⟩ := exists_load_of_mem_held hsource
    exact isWellFormed_of_ofFile hload
  · rw [hasSources_after_iff, ← map_fst_leaves, Ne, Ne, List.map_eq_nil_iff]
  · rw [hasSources_after_iff, range?_after, Ne, Ne, TimeRange.merge_eq_none_iff,
      List.map_eq_nil_iff]

end Workspace

end LogSearch
