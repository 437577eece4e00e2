/-
Packaging does not matter.

Logs may be added one by one or in one archive. Either way each of them is judged alone, so the
same ones are kept, with the same ranges and for the same reasons (`Mirrors`). The archive merges
the ranges of its logs and the workspace those of its files, which comes to the same. And the
tasks that are made of them cannot be told apart by a search, so all searches are the same
(`packaging_irrelevant`).
-/
import LogSearch.Proofs.Archive.RoundTrip
import LogSearch.Proofs.Ingest.Containment
import LogSearch.Proofs.Ingest.Names
import LogSearch.Proofs.Search.Congruence
import LogSearch.Proofs.Workspace.Leaves

set_option autoImplicit false

namespace LogSearch

namespace Workspace

open Search (Job Signal Sink Task run)

variable {env : Environment} {window : Int}

/-! ## One by one -/

/-- Adds files one after the other. -/
def addAll (env : Environment) (window : Int) (w : Workspace) :
    List (String × Bytes) → Except Error Workspace
  | [] => .ok w
  | file :: files =>
    match w.add env window file.1 file.2 with
    | .error e => .error e
    | .ok (_, next) => addAll env window next files

/-- Files that can be added one by one and packed into one archive: they are called logs, headers
have room for their names and sizes, no two agree in name and length, and none is refused. -/
structure IsPackable (hasZstd : Bool) (files : List (String × Bytes)) : Prop where
  logs : ∀ file ∈ files, Text.endsIn file.1 ".log" = true
  fits : ∀ file ∈ files, (Text.encodeUtf8 file.1).length ≤ 100
  zeroFree : ∀ file ∈ files, Char.ofNat 0 ∉ file.1.toList
  short : ∀ file ∈ files, file.2.length < Archive.sizeLimit
  distinct : files.Pairwise fun file other => file.1 = other.1 → file.2.length ≠ other.2.length
  decodes : ∀ file ∈ files, ∀ r, Payload.decode hasZstd file.1 file.2 ≠ .error (.refusal r)

theorem exists_source (window : Int) {name : String} {data : Bytes}
    (hlog : Text.endsIn name ".log" = true)
    (hdecode : ∀ r, Payload.decode env.hasZstd name data ≠ .error (.refusal r)) :
    ∃ source, Ingest.ofFile env window .user name data = .ok source
      ∧ Ingest.ofLog env window name data = .ok source := by
  have hnot : ¬ Payload.IsRefused name data := by
    rw [← Payload.exists_decode_refusal_iff env.hasZstd]
    rintro ⟨r, h⟩
    exact hdecode r h
  obtain ⟨source, hsource⟩ := Ingest.exists_ofLog_iff.mpr hnot
  refine ⟨source, ?_, hsource⟩
  have hname := Ingest.isBundleName_of_log hlog
  have hcompressed : Ingest.isCompressedBundle name = false := (Bool.or_eq_false_iff.mp hname).1
  rw [Ingest.ofFile, if_neg (by rw [hcompressed]; exact Bool.false_ne_true),
    if_neg (by rw [hname]; simp), hsource]

theorem exists_sources (window : Int) {files : List (String × Bytes)}
    (h : IsPackable env.hasZstd files) :
    ∃ sources, List.Forall₂ (fun file source =>
        Ingest.ofFile env window .user file.1 file.2 = .ok source) files sources
      ∧ List.Forall₂ (fun file source =>
        Ingest.ofLog env window file.1 file.2 = .ok source) files sources := by
  obtain ⟨hlogs, -, -, -, -, hdecodes⟩ := h
  induction files with
  | nil => exact ⟨[], .nil, .nil⟩
  | cons file files ih =>
    obtain ⟨hlog, hlogs⟩ := List.forall_mem_cons.mp hlogs
    obtain ⟨hdecode, hdecodes⟩ := List.forall_mem_cons.mp hdecodes
    obtain ⟨source, hfile, hsource⟩ := exists_source window hlog hdecode
    obtain ⟨sources, hfiles, hsources⟩ := ih hlogs hdecodes
    exact ⟨source :: sources, .cons hfile hfiles, .cons hsource hsources⟩

theorem names_of_ofFile {files : List (String × Bytes)} {sources : List Source}
    (h : List.Forall₂ (fun file source =>
      Ingest.ofFile env window .user file.1 file.2 = .ok source) files sources) :
    sources.map (fun source => (source.name, source.size))
      = files.map fun file => (file.1, file.2.length) := by
  induction h with
  | nil => rfl
  | cons hfirst hrest ih =>
    obtain ⟨hname, hsize⟩ := Ingest.name_size_of_ofFile hfirst
    rw [List.map_cons, List.map_cons, hname, hsize, ih]

theorem addAll_eq {files : List (String × Bytes)} {sources : List Source}
    (hload : List.Forall₂ (fun file source =>
      Ingest.ofFile env window .user file.1 file.2 = .ok source) files sources)
    (hdistinct : files.Pairwise fun file other => file.1 = other.1 → file.2.length ≠ other.2.length)
    (w : Workspace) (hnew : ∀ file ∈ files, w.isLoaded file.1 file.2.length = false) :
    addAll env window w files = .ok { w with files := w.files ++ sources } := by
  induction hload generalizing w with
  | nil => rw [addAll, List.append_nil]
  | @cons file source files sources hfirst hrest ih =>
    obtain ⟨hfirstDistinct, hdistinct⟩ := List.pairwise_cons.mp hdistinct
    obtain ⟨hname, hsize⟩ := Ingest.name_size_of_ofFile hfirst
    rw [addAll, add, hnew file List.mem_cons_self, if_neg Bool.false_ne_true, hfirst]
    dsimp only
    -- the first file is there now, and the others differ from it
    rw [ih hdistinct (w.append source) ?_, append, List.append_assoc]
    · rfl
    · intro other hother
      have hold := hnew other (List.mem_cons_of_mem _ hother)
      rw [isLoaded] at hold ⊢
      rw [append, List.any_append, hold, Bool.false_or, List.any_cons, List.any_nil, Bool.or_false,
        hname, hsize, Bool.and_eq_false_iff]
      by_cases hsame : file.1 = other.1
      · exact .inr (decide_eq_false (hfirstDistinct other hother hsame))
      · exact .inl (decide_eq_false hsame)

/-! ## All at once -/

/-- Whether an archive holds some files as its regular files, in their order. -/
def Packs (members : List Archive.Member) (files : List (String × Bytes)) : Prop :=
  (members.filter Archive.Member.isRegular).map (fun m => (m.path, m.data)) = files

theorem exists_packs {hasZstd : Bool} {files : List (String × Bytes)}
    (h : IsPackable hasZstd files) : ∃ members, Packs members files := by
  have hnamed : ∀ name, Text.endsIn name ".log" = true → name ≠ "" := by
    rintro name hlog rfl
    cases hlog
  obtain ⟨hlogs, hfits, hzero, hshort, -, -⟩ := h
  induction files with
  | nil => exact ⟨[], rfl⟩
  | cons file files ih =>
    obtain ⟨hlog, hlogs⟩ := List.forall_mem_cons.mp hlogs
    obtain ⟨hfit, hfits⟩ := List.forall_mem_cons.mp hfits
    obtain ⟨hfree, hzero⟩ := List.forall_mem_cons.mp hzero
    obtain ⟨hsmall, hshort⟩ := List.forall_mem_cons.mp hshort
    obtain ⟨members, hmembers⟩ := ih hlogs hfits hzero hshort
    refine ⟨.plain 0x30 { text := "" } ⟨file.1, hfree, hfit⟩ file.2 (hnamed _ hlog) hsmall
      :: members, ?_⟩
    rw [Packs, List.filter_cons_of_pos (by rfl), List.map_cons, hmembers]
    rfl

/-- The entries of an archive that packs some logs. -/
def entriesOf (members : List Archive.Member) : List Archive.Entry :=
  (members.filter Archive.Member.isRegular).map Archive.Member.entry

theorem map_entriesOf {members : List Archive.Member} {files : List (String × Bytes)}
    (h : Packs members files) :
    (entriesOf members).map (fun entry => (entry.name, entry.data)) = files := by
  rw [← h, entriesOf, List.map_map]
  rfl

/-- The source that an archive of logs becomes. -/
def packedSource (env : Environment) (window : Int) (archive : String)
    (members : List Archive.Member) : Source :=
  Ingest.bundleSource env window archive (Archive.write members).length (entriesOf members) []

theorem add_write {files : List (String × Bytes)} {archive : String}
    {members : List Archive.Member} (packable : IsPackable env.hasZstd files)
    (tar : Text.endsIn (Text.lower archive) ".tar" = true) (packs : Packs members files) :
    add env window {} archive (Archive.write members)
      = .ok (packedSource env window archive members,
        { files := [packedSource env window archive members] }) := by
  have hread : Archive.read? (Archive.write members) = some ⟨entriesOf members, []⟩ := by
    have hwalk : Archive.walk (Archive.write members) (Archive.stepLimit (Archive.write members)) 0
        = some (members.flatMap Archive.Member.findings) :=
      Archive.walk_write members [] (Archive.length_lt_stepLimit members)
    rw [Archive.read?, hwalk, Option.map_some, Archive.ofFindings_flatMap]
    rfl
  have hmem : ∀ entry ∈ entriesOf members, (entry.name, entry.data) ∈ files := by
    intro entry hentry
    rw [← map_entriesOf packs]
    exact List.mem_map.mpr ⟨entry, hentry, rfl⟩
  -- all entries are taken for logs, and none of them is refused
  have hlogs : Ingest.logsIn .user ⟨entriesOf members, []⟩ = entriesOf members :=
    List.filter_eq_self.mpr fun entry hentry =>
      Ingest.isLogEntry_of_log (packable.logs _ (hmem entry hentry))
  have hnot : ∀ entry ∈ entriesOf members, ¬ Payload.IsRefused entry.name entry.data := by
    intro entry hentry
    rw [← Payload.exists_decode_refusal_iff env.hasZstd]
    rintro ⟨r, h⟩
    exact packable.decodes _ (hmem entry hentry) r h
  have hload : Ingest.ofFile env window .user archive (Archive.write members)
      = .ok (packedSource env window archive members) := by
    have hcompressed := Ingest.isCompressedBundle_of_tar tar
    have hbundle : Ingest.isBundleName archive = true := by
      rw [Ingest.isBundleName, tar, Bool.or_true]
    rw [Ingest.ofFile, if_neg (by rw [hcompressed]; exact Bool.false_ne_true),
      if_pos (.inr hbundle)]
    refine Ingest.ofBundle_eq_ok_iff.mpr ⟨_, hread, ?_, ?_⟩
    · rwa [hlogs]
    · rw [hlogs, packedSource]
  rw [add, if_neg (by exact Bool.false_ne_true), hload]
  rfl

/-! ## Both -/

/-- What is reported about a file, in the way of a warning about an entry. -/
def reportOf? (source : Source) : Option String :=
  source.error?.map fun reason => s!"{source.name}: {reason}"

/-- How the logs of an archive and the files that they would be alone mirror each other. -/
structure Mirrors (env : Environment) (window : Int) (entries : List Archive.Entry)
    (sources : List Source) : Prop where
  ranges : sources.filterMap (·.range?)
    = (entries.filterMap (Ingest.subFile? env window)).map (·.range)
  tasks : (sources.flatMap tasksOf).map (Task.view env.hasZstd)
    = (entries.filterMap (Ingest.subFile? env window)).map fun subFile =>
      (Task.entry subFile.entry.name subFile.entry).view env.hasZstd
  kept : ((entries.zip sources).filter (·.2.isReady)).map (·.1)
    = (entries.filterMap (Ingest.subFile? env window)).map (·.entry)
  notices : sources.filterMap reportOf? = entries.filterMap (Ingest.notice? env window)

/-- **Each log is judged alone.** -/
theorem mirrors_of_ofLog {entries : List Archive.Entry} {sources : List Source}
    (h : List.Forall₂ (fun entry source =>
      Ingest.ofLog env window entry.name entry.data = .ok source) entries sources) :
    Mirrors env window entries sources := by
  induction h with
  | nil => exact ⟨rfl, rfl, rfl, rfl⟩
  | @cons entry source entries sources hfirst hrest ih =>
    rcases Ingest.ofLog_cases hfirst with ⟨range, hkept, hnotice, hsource⟩
      | ⟨reason, hkept, hnotice, hsource⟩
    -- a log that is kept adds one item to the first three lists, any other log one to the last
    · have hrange : source.range? = some range := by rw [hsource]; rfl
      have hready : source.isReady = true := by rw [hsource]; rfl
      have hreport : reportOf? source = none := by rw [hsource]; rfl
      have hview : (tasksOf source).map (Task.view env.hasZstd)
          = [(Task.entry entry.name entry).view env.hasZstd] := by rw [hsource]; rfl
      constructor
      · rw [List.filterMap_cons_some hrange, List.filterMap_cons_some hkept, List.map_cons,
          ih.ranges]
      · rw [List.flatMap_cons, List.map_append, hview, ih.tasks, List.filterMap_cons_some hkept,
          List.map_cons, List.singleton_append]
      · rw [List.zip_cons_cons, List.filter_cons_of_pos (by exact hready),
          List.filterMap_cons_some hkept, List.map_cons, List.map_cons, ih.kept]
      · rw [List.filterMap_cons_none hreport, List.filterMap_cons_none hnotice, ih.notices]
    · have hrange : source.range? = none := by rw [hsource]; rfl
      have hready : source.isReady = false := by rw [hsource]; rfl
      have hreport : reportOf? source = some s!"{entry.name}: {reason}" := by rw [hsource]; rfl
      have htasks : tasksOf source = [] := by rw [hsource]; rfl
      constructor
      · rw [List.filterMap_cons_none hrange, List.filterMap_cons_none hkept, ih.ranges]
      · rw [List.flatMap_cons, htasks, List.nil_append, ih.tasks, List.filterMap_cons_none hkept]
      · rw [List.zip_cons_cons, List.filter_cons_of_neg (by rw [hready]; exact Bool.false_ne_true),
          ih.kept, List.filterMap_cons_none hkept]
      · rw [List.filterMap_cons_some hreport, List.filterMap_cons_some hnotice, ih.notices]

section Packed

variable {members : List Archive.Member} {sources : List Source}

/-- The archive spans the time that its logs span as files. -/
theorem range?_packed (archive : String)
    (h : Mirrors env window (entriesOf members) sources) :
    ({ files := [packedSource env window archive members] } : Workspace).range?
      = ({ files := sources } : Workspace).range? := by
  have hplain : ({ files := sources } : Workspace).held = sources := List.append_nil _
  have hpacked : ({ files := [packedSource env window archive members] } : Workspace).held
      = [packedSource env window archive members] := rfl
  rw [range?_eq, range?_eq, hplain, hpacked, h.ranges, ← Ingest.range?_bundleSource env window
    archive (Archive.write members).length (entriesOf members) [], ← packedSource]
  -- one source is merged with nothing
  cases hrange : (packedSource env window archive members).range? with
  | none => rw [List.filterMap_cons_none hrange]; rfl
  | some range => rw [List.filterMap_cons_some hrange]; rfl

/-- A search cannot tell the tasks of the archive from those of the files. -/
theorem map_view_tasks_packed (archive : String)
    (h : Mirrors env window (entriesOf members) sources) :
    ({ files := [packedSource env window archive members] } : Workspace).tasks.map
        (Task.view env.hasZstd)
      = ({ files := sources } : Workspace).tasks.map (Task.view env.hasZstd) := by
  have hplain : ({ files := sources } : Workspace).held = sources := List.append_nil _
  have hpacked : ({ files := [packedSource env window archive members] } : Workspace).held
      = [packedSource env window archive members] := rfl
  rw [tasks_eq, tasks_eq, hplain, hpacked, h.tasks, List.flatMap_singleton, ← map_fst_leavesOf,
    packedSource, leavesOf_bundleSource, List.map_map, List.map_map]
  rfl

end Packed

/-- **Packaging does not matter.** Add some logs one by one, or pack them into one archive and add
that. Both can be done. The workspaces have the same range, their tasks cannot be told apart by a
search, and so every search finds and reports the same. The archive keeps the logs whose files
are ready alone, and warns of the others with the reasons that their files state. -/
theorem packaging_irrelevant (env : Environment) (window : Int) (files : List (String × Bytes))
    (archive : String) (packable : IsPackable env.hasZstd files)
    (tar : Text.endsIn (Text.lower archive) ".tar" = true) :
    (∃ members, Packs members files)
      ∧ ∃ plain, addAll env window {} files = .ok plain
        ∧ plain.files.map (fun file => (file.name, file.size))
          = files.map (fun file => (file.1, file.2.length))
        ∧ ∀ members, Packs members files → ∃ bundle packed,
          add env window {} archive (Archive.write members) = .ok (bundle, packed)
            ∧ packed.range? = plain.range?
            ∧ packed.tasks.map (Task.view env.hasZstd) = plain.tasks.map (Task.view env.hasZstd)
            ∧ (∀ {σ : Type} (job : Job) (sink : Sink σ) (signal : Signal) (start : σ),
              job.environment.hasZstd = env.hasZstd →
              run job sink signal start packed.tasks = run job sink signal start plain.tasks)
            ∧ bundle.subFiles.map (fun subFile => (subFile.entry.name, subFile.entry.data))
              = ((files.zip plain.files).filter (·.2.isReady)).map (·.1)
            ∧ bundle.warnings = plain.files.filterMap reportOf? := by
  refine ⟨exists_packs packable, ?_⟩
  obtain ⟨sources, hload, hlog⟩ := exists_sources window packable
  refine ⟨{ files := sources }, ?_, names_of_ofFile hload, fun members packs => ?_⟩
  · rw [addAll_eq hload packable.distinct {} fun _ _ => rfl]
    rfl
  have hmirrors : Mirrors env window (entriesOf members) sources := by
    refine mirrors_of_ofLog ?_
    rw [← map_entriesOf packs, List.forall₂_map_left_iff] at hlog
    exact hlog
  -- the rest is about these two workspaces, whose sources are known
  have htasks := map_view_tasks_packed archive hmirrors
  refine ⟨_, _, add_write packable tar packs, range?_packed archive hmirrors, htasks, ?_, ?_, ?_⟩
  · intro σ job sink signal start hzstd
    refine Search.run_congr sink signal start ?_
    rw [Search.SameView, hzstd]
    exact htasks
  · rw [packedSource, Ingest.subFiles_bundleSource, ← map_entriesOf packs, List.zip_map_left,
      List.filter_map, List.map_map]
    have hkept := congrArg (List.map fun entry : Archive.Entry => (entry.name, entry.data))
      hmirrors.kept
    rw [List.map_map, List.map_map] at hkept
    exact hkept.symm
  · rw [packedSource, Ingest.bundleSource, hmirrors.notices]
    exact List.append_nil _

/-- A log that is kept and one without any time in it. -/
theorem packaging_irrelevant_twoLogs :
    let env : Environment := { currentYear := 2026, processors := none }
    let files := [("a.log", Text.encodeUtf8 "2024-01-02 03:04:05 up"),
      ("b.log", Text.encodeUtf8 "up")]
    IsPackable env.hasZstd files ∧ Text.endsIn (Text.lower "logs.tar") ".tar" = true
      ∧ ∃ members plain bundle packed, Packs members files
        ∧ addAll env 1000 {} files = .ok plain ∧ plain.tasks.length = 1
        ∧ add env 1000 {} "logs.tar" (Archive.write members) = .ok (bundle, packed)
        ∧ packed.range? = plain.range? ∧ packed.tasks.length = 1 := by
  intro env files
  have hdecode : ∀ file ∈ files,
      (Payload.decode env.hasZstd file.1 file.2).toOption.isSome = true := by decide +kernel
  have packable : IsPackable env.hasZstd files := by
    refine ⟨by decide, by decide, by decide, by decide, by decide, fun file hfile r h => ?_⟩
    have hsome := hdecode file hfile
    rw [h] at hsome
    cases hsome
  have tar : Text.endsIn (Text.lower "logs.tar") ".tar" = true := by decide
  have hone : (addAll env 1000 {} files).toOption.map (·.tasks.length) = some 1 := by
    decide +kernel
  obtain ⟨⟨members, packs⟩, plain, hplain, -, hall⟩ :=
    packaging_irrelevant env 1000 files "logs.tar" packable tar
  obtain ⟨bundle, packed, hpacked, hrange, htasks, -⟩ := hall members packs
  rw [hplain] at hone
  have hlength : plain.tasks.length = 1 := Option.some.inj hone
  have hsame := congrArg List.length htasks
  rw [List.length_map, List.length_map, hlength] at hsame
  exact ⟨packable, tar, members, plain, bundle, packed, packs, hplain, hlength, hpacked, hrange,
    hsame⟩

end Workspace

end LogSearch
