/-
Loading in closed form.

A file is taken for a log or for a bundle, and the bundle may have to be unpacked first
(`bundleOf?`). In a bundle every log is judged by itself: `subFile?` says what is kept of it
and `notice?` what is reported about it. So what loading comes to is told by lists of entries,
with no order of steps in it, and `ofBundle_eq_ok_iff` and `ofFile_cases` are all that other
modules need to know about loading.

Only two things keep loading from an end. The walk through a bundle may not have one, and a
payload may be refused. The second happens to ZIP files alone (`exists_refusal_iff`).
-/
import LogSearch.Ingest
import LogSearch.Proofs.TimeRange.Merging

set_option autoImplicit false

namespace LogSearch

theorem Text.append_ne_empty {front back : String} (h : front ≠ "") : front ++ back ≠ "" := by
  intro hempty
  exact h (String.append_eq_empty_iff.mp hempty).1

/-! ## Refused payloads -/

namespace Payload

variable {hasZstd : Bool} {name : String} {data : Bytes}

/-- Whether a payload is taken for a Zstandard file. -/
def IsZstd (name : String) (data : Bytes) : Prop :=
  (Text.endsInAny (Text.lower name) zstdSuffixes || data.take 4 = Zstd.frameMark) = true

/-- Whether a payload that is no Zstandard file is taken for a gzip, zlib or ZIP file. -/
def IsGzip (name : String) (data : Bytes) : Prop :=
  (Text.endsInAny (Text.lower name) gzipSuffixes || Deflate.isGzip data) = true

/-- Whether a payload is read as a ZIP file: it starts like one, and neither its name nor its
first bytes call for another reader that could do with it. -/
def IsReadAsZip (name : String) (data : Bytes) : Prop :=
  ¬ IsZstd name data
    ∧ ((IsGzip name data ∧ (∃ e, Deflate.unwrap data = .error e) ∧ data.take 2 = [0x50, 0x4B])
      ∨ ¬ IsGzip name data ∧ data.take 4 = Zip.headerMark)

/-- Whether a payload is read as a ZIP file and uses what is not read in these. -/
def IsRefused (name : String) (data : Bytes) : Prop :=
  IsReadAsZip name data ∧ ∃ r, Zip.content data = .error (.refusal r)

theorem readZip_eq_refusal_iff {r : Zip.Refusal} :
    readZip name data = .error (.refusal r) ↔ Zip.content data = .error (.refusal r) := by
  unfold readZip
  rcases Zip.content data with (d | r') | (_ | content) <;> simp

theorem readZstd_ne_refusal (r : Zip.Refusal) :
    readZstd hasZstd name data ≠ .error (.refusal r) := by
  unfold readZstd
  cases hasZstd with
  | false => simp
  | true => cases Zstd.content data <;> simp

theorem readGzip_eq_refusal_iff {r : Zip.Refusal} :
    readGzip name data = .error (.refusal r)
      ↔ ((∃ e, Deflate.unwrap data = .error e) ∧ data.take 2 = [0x50, 0x4B])
        ∧ Zip.content data = .error (.refusal r) := by
  unfold readGzip
  cases Deflate.unwrap data with
  | ok content => simp
  | error e =>
    by_cases hmark : data.take 2 = [0x50, 0x4B]
    · simp [hmark, readZip_eq_refusal_iff]
    · cases Deflate.unwrapMembers? data <;> simp [hmark]

theorem decompress_eq_refusal_iff {r : Zip.Refusal} :
    decompress hasZstd name data = .error (.refusal r)
      ↔ IsReadAsZip name data ∧ Zip.content data = .error (.refusal r) := by
  unfold decompress IsReadAsZip
  dsimp only
  -- the cases are those of the search for a reader
  split
  · rename_i hzstd
    exact iff_of_false (readZstd_ne_refusal r) fun h => h.1.1 hzstd
  · rename_i hzstd
    change ¬ IsZstd name data at hzstd
    split
    · rename_i hgzip
      change IsGzip name data at hgzip
      rw [readGzip_eq_refusal_iff]
      simp only [hzstd, hgzip, not_false_eq_true, not_true_eq_false, true_and, false_and, or_false]
    · rename_i hgzip
      change ¬ IsGzip name data at hgzip
      by_cases hzip : data.take 4 = Zip.headerMark
      · rw [if_pos hzip, readZip_eq_refusal_iff]
        simp only [hzstd, hgzip, hzip, not_false_eq_true, true_and, false_and, false_or]
      · rw [if_neg hzip]
        simp only [hgzip, hzip, false_and, and_false, or_false, reduceCtorEq]

/-- **Who refuses.** Only the reader of ZIP files refuses a payload. -/
theorem exists_refusal_iff (hasZstd : Bool) (name : String) (data : Bytes) :
    (∃ r, decompress hasZstd name data = .error (.refusal r)) ↔ IsRefused name data := by
  simp only [decompress_eq_refusal_iff, exists_and_left, IsRefused]

theorem exists_decode_refusal_iff (hasZstd : Bool) (name : String) (data : Bytes) :
    (∃ r, decode hasZstd name data = .error (.refusal r)) ↔ IsRefused name data := by
  rw [← exists_refusal_iff hasZstd, decode]
  cases decompress hasZstd name data <;> simp [Except.map]

theorem Failure.message_ne_empty (f : Failure) : f.message ≠ "" := by
  cases f with
  | withoutZstd name =>
    exact Text.append_ne_empty (Text.append_ne_empty (show "Cannot decompress " ≠ "" by simp))
  | zstd name f =>
    refine Text.append_ne_empty (Text.append_ne_empty (Text.append_ne_empty ?_))
    show "Unable to decompress " ≠ ""
    simp
  | stream name e =>
    refine Text.append_ne_empty (Text.append_ne_empty (Text.append_ne_empty ?_))
    show "Unable to decompress " ≠ ""
    simp
  | zip name d =>
    refine Text.append_ne_empty (Text.append_ne_empty (Text.append_ne_empty ?_))
    show "Unable to read ZIP container " ≠ ""
    simp
  | emptyZip name =>
    refine Text.append_ne_empty ?_
    show "No readable text member found in ZIP container " ≠ ""
    simp

end Payload

namespace Ingest

variable {env : Environment} {window : Int} {origin : Origin} {name : String} {data : Bytes}

/-! ## One log -/

theorem rangeOfText_eq_ok_iff {text : String} {range : TimeRange} :
    rangeOfText env window name text = .ok range
      ↔ text ≠ "" ∧ TimeRange.ofText
        (Timestamp.fallbackYear env.currentYear (some name) none) window text = some range := by
  unfold rangeOfText
  -- an empty text is reported before it is looked at, so the first condition is needed
  by_cases hempty : text.isEmpty = true
  · simp [String.isEmpty_iff.mp hempty]
  · rw [if_neg hempty]
    rw [String.isEmpty_iff] at hempty
    dsimp only
    cases TimeRange.ofText (Timestamp.fallbackYear env.currentYear (some name) none) window text <;>
      simp [hempty]

theorem reason_ne_empty_of_rangeOfText {text reason : String}
    (h : rangeOfText env window name text = .error reason) : reason ≠ "" := by
  unfold rangeOfText at h
  split at h
  · cases h
    refine Text.append_ne_empty (Text.append_ne_empty ?_)
    show "File " ≠ ""
    simp
  · dsimp only at h
    split at h
    · cases h
    · cases h
      refine Text.append_ne_empty ?_
      show "No valid timestamp found in " ≠ ""
      simp

/-- What comes of a log: it is refused, or it cannot be unpacked, or its text is looked at. -/
theorem rangeOfLog_cases (env : Environment) (window : Int) (name : String) (data : Bytes) :
    (∃ r, Payload.decode env.hasZstd name data = .error (.refusal r) ∧ Payload.IsRefused name data
      ∧ rangeOfLog env window name data = .error (.refused r))
    ∨ (∃ f, Payload.decode env.hasZstd name data = .error (.failure f)
      ∧ ¬ Payload.IsRefused name data
      ∧ rangeOfLog env window name data = .ok (.error f.message))
    ∨ ∃ text, Payload.decode env.hasZstd name data = .ok text ∧ ¬ Payload.IsRefused name data
      ∧ rangeOfLog env window name data = .ok (rangeOfText env window name text) := by
  rw [← Payload.exists_refusal_iff env.hasZstd]
  unfold rangeOfLog Payload.decode
  rcases Payload.decompress env.hasZstd name data with (f | r) | bytes
  · exact .inr (.inl ⟨f, rfl, by simp, rfl⟩)
  · exact .inl ⟨r, rfl, ⟨r, rfl⟩, rfl⟩
  · exact .inr (.inr ⟨_, rfl, by simp, rfl⟩)

theorem reason_ne_empty_of_rangeOfLog {reason : String}
    (h : rangeOfLog env window name data = .ok (.error reason)) : reason ≠ "" := by
  rcases rangeOfLog_cases env window name data with ⟨r, -, -, hrange⟩ | ⟨f, -, -, hrange⟩
    | ⟨text, -, -, hrange⟩
  · rw [hrange] at h
    cases h
  · rw [hrange] at h
    cases h
    exact f.message_ne_empty
  · rw [hrange, Except.ok.injEq] at h
    exact reason_ne_empty_of_rangeOfText h

theorem exists_text_of_rangeOfLog {range : TimeRange}
    (h : rangeOfLog env window name data = .ok (.ok range)) :
    ∃ text, Payload.decode env.hasZstd name data = .ok text
      ∧ rangeOfText env window name text = .ok range := by
  rcases rangeOfLog_cases env window name data with ⟨r, -, -, hrange⟩ | ⟨f, -, -, hrange⟩
    | ⟨text, hdecode, -, hrange⟩
  · rw [hrange] at h
    cases h
  · rw [hrange] at h
    cases h
  · rw [hrange, Except.ok.injEq] at h
    exact ⟨text, hdecode, h⟩

theorem not_isRefused_of_rangeOfLog {judged : Except String TimeRange}
    (h : rangeOfLog env window name data = .ok judged) : ¬ Payload.IsRefused name data := by
  rcases rangeOfLog_cases env window name data with ⟨r, -, -, hrange⟩ | ⟨f, -, hnot, -⟩
    | ⟨text, -, hnot, -⟩
  · rw [hrange] at h
    cases h
  · exact hnot
  · exact hnot

/-! ## The logs of a bundle -/

/-- What is kept of a log, given what was found out about it. -/
def kept? (entry : Archive.Entry) : Except Abort (Except String TimeRange) → Option SubFile
  | .ok (.ok range) => some ⟨entry, range⟩
  | .ok (.error _) => none
  | .error _ => none

/-- What is reported about a log, given what was found out about it. -/
def reported? (entry : Archive.Entry) : Except Abort (Except String TimeRange) → Option String
  | .ok (.ok _) => none
  | .ok (.error reason) => some s!"{entry.name}: {reason}"
  | .error _ => none

/-- What is kept of a log in a bundle. -/
def subFile? (env : Environment) (window : Int) (entry : Archive.Entry) : Option SubFile :=
  kept? entry (rangeOfLog env window entry.name entry.data)

/-- What is reported about a log in a bundle. -/
def notice? (env : Environment) (window : Int) (entry : Archive.Entry) : Option String :=
  reported? entry (rangeOfLog env window entry.name entry.data)

theorem subFile?_eq_some_iff {entry : Archive.Entry} {subFile : SubFile} :
    subFile? env window entry = some subFile
      ↔ subFile.entry = entry
        ∧ rangeOfLog env window entry.name entry.data = .ok (.ok subFile.range) := by
  unfold subFile?
  rcases rangeOfLog env window entry.name entry.data with abort | (reason | range)
  · simp [kept?]
  · simp [kept?]
  · simp only [kept?, Option.some.injEq, Except.ok.injEq]
    constructor
    · rintro rfl
      exact ⟨rfl, rfl⟩
    · rintro ⟨rfl, rfl⟩
      rfl

/-- Each log is judged by itself. -/
theorem takeLogs_of_not_refused {entries : List Archive.Entry}
    (h : ∀ entry ∈ entries, ¬ Payload.IsRefused entry.name entry.data) :
    takeLogs env window entries
      = .ok (entries.filterMap (subFile? env window), entries.filterMap (notice? env window)) := by
  induction entries with
  | nil => rfl
  | cons entry entries ih =>
    have hentry := h entry List.mem_cons_self
    have hrest := ih fun other hother => h other (List.mem_cons_of_mem _ hother)
    simp only [takeLogs, hrest, List.filterMap_cons, subFile?, notice?]
    rcases rangeOfLog_cases env window entry.name entry.data with ⟨r, -, hrefused, -⟩
      | ⟨f, -, -, hrange⟩ | ⟨text, -, -, hrange⟩
    · exact absurd hrefused hentry
    · simp only [hrange]
      rfl
    · simp only [hrange]
      cases rangeOfText env window entry.name text with
      | error reason => rfl
      | ok range => rfl

/-- One refused log stops all of it. -/
theorem takeLogs_of_refused (env : Environment) (window : Int) {entries : List Archive.Entry}
    {entry : Archive.Entry} (hmem : entry ∈ entries)
    (hrefused : Payload.IsRefused entry.name entry.data) :
    ∃ r, takeLogs env window entries = .error (.refused r) := by
  induction entries with
  | nil => cases hmem
  | cons first entries ih =>
    rw [takeLogs]
    rcases rangeOfLog_cases env window first.name first.data with ⟨r, -, -, hrange⟩
      | ⟨f, -, hnot, hrange⟩ | ⟨text, -, hnot, hrange⟩
    · rw [hrange]
      exact ⟨r, rfl⟩
    all_goals
      -- the first log is no reason to stop, so it is not the refused one
      rcases List.mem_cons.mp hmem with rfl | hmem
      · exact absurd hrefused hnot
      · obtain ⟨r, htake⟩ := ih hmem
        rw [hrange, htake]
        exact ⟨r, rfl⟩

theorem takeLogs_eq_ok_iff {entries : List Archive.Entry} {taken : List SubFile × List String} :
    takeLogs env window entries = .ok taken
      ↔ (∀ entry ∈ entries, ¬ Payload.IsRefused entry.name entry.data)
        ∧ taken
          = (entries.filterMap (subFile? env window), entries.filterMap (notice? env window)) := by
  constructor
  · intro h
    -- a refused log would have been a reason to stop
    have hnot : ∀ entry ∈ entries, ¬ Payload.IsRefused entry.name entry.data := by
      intro entry hmem hrefused
      obtain ⟨r, htake⟩ := takeLogs_of_refused env window hmem hrefused
      rw [htake] at h
      cases h
    rw [takeLogs_of_not_refused hnot] at h
    cases h
    exact ⟨hnot, rfl⟩
  · rintro ⟨hnot, rfl⟩
    exact takeLogs_of_not_refused hnot

/-! ## Bundles -/

/-- The entries of a bundle that are taken for logs. -/
def logsIn (origin : Origin) (reading : Archive.Reading) : List Archive.Entry :=
  reading.entries.filter fun entry => isLogEntry origin entry.name

/-- The source that a bundle becomes, given the logs in it and the reports of its reader. -/
def bundleSource (env : Environment) (window : Int) (name : String) (size : Nat)
    (logs : List Archive.Entry) (warnings : List Archive.Warning) : Source where
  name := name
  size := size
  contents :=
    match TimeRange.merge ((logs.filterMap (subFile? env window)).map (·.range)) with
    | some range => .bundle (logs.filterMap (subFile? env window)) range
    | none => .unusable true (noLog name)
  warnings := logs.filterMap (notice? env window) ++ warnings.map (·.message)

theorem ofBundle_eq_ok_iff {size : Nat} {bundle : Bytes} {source : Source} :
    ofBundle env window origin name size bundle = .ok source
      ↔ ∃ reading, Archive.read? bundle = some reading
        ∧ (∀ entry ∈ logsIn origin reading, ¬ Payload.IsRefused entry.name entry.data)
        ∧ source = bundleSource env window name size (logsIn origin reading) reading.warnings := by
  unfold ofBundle
  cases Archive.read? bundle with
  | none => simp
  | some reading =>
    simp only [Option.some.injEq, exists_eq_left']
    change (takeLogs env window (logsIn origin reading) >>= _) = _ ↔ _
    constructor
    · intro h
      rcases htake : takeLogs env window (logsIn origin reading) with abort | taken
      · rw [htake] at h
        cases h
      · obtain ⟨hnot, rfl⟩ := takeLogs_eq_ok_iff.mp htake
        rw [htake] at h
        cases h
        exact ⟨hnot, rfl⟩
    · rintro ⟨hnot, rfl⟩
      rw [takeLogs_of_not_refused hnot]
      rfl

theorem range?_bundleSource (env : Environment) (window : Int) (name : String) (size : Nat)
    (logs : List Archive.Entry) (warnings : List Archive.Warning) :
    (bundleSource env window name size logs warnings).range?
      = TimeRange.merge ((logs.filterMap (subFile? env window)).map (·.range)) := by
  unfold Source.range? bundleSource
  cases TimeRange.merge ((logs.filterMap (subFile? env window)).map (·.range)) <;> rfl

/-- What is kept of a bundle, whether or not it is enough to search. -/
theorem subFiles_bundleSource (env : Environment) (window : Int) (name : String) (size : Nat)
    (logs : List Archive.Entry) (warnings : List Archive.Warning) :
    (bundleSource env window name size logs warnings).subFiles
      = logs.filterMap (subFile? env window) := by
  unfold Source.subFiles bundleSource
  cases hmerge : TimeRange.merge ((logs.filterMap (subFile? env window)).map (·.range)) with
  | some range => rfl
  -- a bundle without a range is kept without its logs, but then there are none
  | none => exact (List.map_eq_nil_iff.mp (TimeRange.merge_eq_none_iff.mp hmerge)).symm

/-! ## Files -/

/-- What a file is taken for: a log if this is `none`, or else a bundle, whose bytes may have to
be unpacked first. -/
def bundleOf? (hasZstd : Bool) (origin : Origin) (name : String) (data : Bytes) :
    Option (Except Payload.Error Bytes) :=
  if isCompressedBundle name then some (Payload.decompress hasZstd name data)
  else if origin = .server ∨ isBundleName name then some (.ok data)
  else none

/-- The logs that loading looks into, each under the name that goes with it. -/
def logsOf (hasZstd : Bool) (origin : Origin) (name : String) (data : Bytes) :
    List (String × Bytes) :=
  match bundleOf? hasZstd origin name data with
  | none => [(name, data)]
  | some (.error _) => []
  | some (.ok bundle) =>
    match Archive.read? bundle with
    | none => []
    | some reading => (logsIn origin reading).map fun entry => (entry.name, entry.data)

theorem ofFile_eq :
    ofFile env window origin name data
      = match bundleOf? env.hasZstd origin name data with
        | none => ofLog env window name data
        | some (.ok bundle) => ofBundle env window origin name data.length bundle
        | some (.error (.refusal r)) => .error (.refused r)
        | some (.error (.failure f)) => .ok ⟨name, data.length, .unusable false f.message, []⟩ := by
  unfold ofFile bundleOf?
  by_cases hcompressed : isCompressedBundle name = true
  · rw [if_pos hcompressed, if_pos hcompressed]
    rcases Payload.decompress env.hasZstd name data with (f | r) | bundle <;> rfl
  · rw [if_neg hcompressed, if_neg hcompressed]
    by_cases hbundle : origin = .server ∨ isBundleName name = true
    · rw [if_pos hbundle, if_pos hbundle]
    · rw [if_neg hbundle, if_neg hbundle]

theorem ofLog_eq_ok_iff {source : Source} :
    ofLog env window name data = .ok source
      ↔ (∃ range, rangeOfLog env window name data = .ok (.ok range)
        ∧ source = ⟨name, data.length, .log data range, []⟩)
      ∨ ∃ reason, rangeOfLog env window name data = .ok (.error reason)
        ∧ source = ⟨name, data.length, .unusable false reason, []⟩ := by
  unfold ofLog
  rcases rangeOfLog env window name data with abort | (reason | range)
  · simp [bind, Except.bind]
  · simp [bind, Except.bind, pure, Except.pure, eq_comm]
  · simp [bind, Except.bind, pure, Except.pure, eq_comm]

/-- What comes of a log alone, and what would come of it in a bundle. -/
theorem ofLog_cases {entry : Archive.Entry} {source : Source}
    (h : ofLog env window entry.name entry.data = .ok source) :
    (∃ range, subFile? env window entry = some ⟨entry, range⟩ ∧ notice? env window entry = none
      ∧ source = ⟨entry.name, entry.data.length, .log entry.data range, []⟩)
    ∨ ∃ reason, subFile? env window entry = none
      ∧ notice? env window entry = some s!"{entry.name}: {reason}"
      ∧ source = ⟨entry.name, entry.data.length, .unusable false reason, []⟩ := by
  rcases ofLog_eq_ok_iff.mp h with ⟨range, hrange, rfl⟩ | ⟨reason, hrange, rfl⟩
  · exact .inl ⟨range, by rw [subFile?, hrange, kept?], by rw [notice?, hrange, reported?], rfl⟩
  · exact .inr ⟨reason, by rw [subFile?, hrange, kept?], by rw [notice?, hrange, reported?], rfl⟩

/-- **What a loaded file is.** A log with a range or without one, a bundle with the logs that
were taken out of it, or a bundle that could not be unpacked. -/
theorem ofFile_cases {source : Source} (h : ofFile env window origin name data = .ok source) :
    (∃ range, bundleOf? env.hasZstd origin name data = none
      ∧ rangeOfLog env window name data = .ok (.ok range)
      ∧ source = ⟨name, data.length, .log data range, []⟩)
    ∨ (∃ reason, bundleOf? env.hasZstd origin name data = none
      ∧ rangeOfLog env window name data = .ok (.error reason)
      ∧ source = ⟨name, data.length, .unusable false reason, []⟩)
    ∨ (∃ bundle reading, bundleOf? env.hasZstd origin name data = some (.ok bundle)
      ∧ Archive.read? bundle = some reading
      ∧ source = bundleSource env window name data.length (logsIn origin reading)
        reading.warnings)
    ∨ ∃ f, bundleOf? env.hasZstd origin name data = some (.error (.failure f))
      ∧ source = ⟨name, data.length, .unusable false f.message, []⟩ := by
  rw [ofFile_eq] at h
  rcases hbundle : bundleOf? env.hasZstd origin name data with _ | ((f | r) | bundle)
  · rw [hbundle] at h
    rcases ofLog_eq_ok_iff.mp h with ⟨range, hrange, rfl⟩ | ⟨reason, hrange, rfl⟩
    · exact .inl ⟨range, rfl, hrange, rfl⟩
    · exact .inr (.inl ⟨reason, rfl, hrange, rfl⟩)
  · rw [hbundle] at h
    cases h
    exact .inr (.inr (.inr ⟨f, rfl, rfl⟩))
  · rw [hbundle] at h
    cases h
  · rw [hbundle] at h
    obtain ⟨reading, hread, -, rfl⟩ := ofBundle_eq_ok_iff.mp h
    exact .inr (.inr (.inl ⟨bundle, reading, rfl, hread, rfl⟩))

theorem name_size_of_ofFile {source : Source}
    (h : ofFile env window origin name data = .ok source) :
    source.name = name ∧ source.size = data.length := by
  rcases ofFile_cases h with ⟨range, -, -, rfl⟩ | ⟨reason, -, -, rfl⟩
    | ⟨bundle, reading, -, -, rfl⟩ | ⟨f, -, rfl⟩
  all_goals exact ⟨rfl, rfl⟩

/-- Every source is ready, or it says why it is not. -/
theorem status_of_ofFile {source : Source} (h : ofFile env window origin name data = .ok source) :
    source.status = "ready" ∧ source.error? = none
      ∨ source.status = "error" ∧ ∃ reason, source.error? = some reason ∧ reason ≠ "" := by
  have hunusable : ∀ {source : Source} {isBundle : Bool} {reason : String},
      source.contents = .unusable isBundle reason → reason ≠ "" →
        source.status = "error" ∧ ∃ reason, source.error? = some reason ∧ reason ≠ "" := by
    intro source isBundle reason hcontents hreason
    refine ⟨?_, reason, ?_, hreason⟩
    · simp [Source.status, Source.isReady, hcontents]
    · simp [Source.error?, hcontents]
  rcases ofFile_cases h with ⟨range, -, -, rfl⟩ | ⟨reason, -, hrange, rfl⟩
    | ⟨bundle, reading, -, -, rfl⟩ | ⟨f, -, rfl⟩
  · exact .inl ⟨rfl, rfl⟩
  · exact .inr (hunusable rfl (reason_ne_empty_of_rangeOfLog hrange))
  · unfold bundleSource
    cases TimeRange.merge (((logsIn origin reading).filterMap (subFile? env window)).map
        (·.range)) with
    | some range => exact .inl ⟨rfl, rfl⟩
    | none =>
      refine .inr (hunusable rfl ?_)
      exact Text.append_ne_empty (Text.append_ne_empty (show "Archive " ≠ "" by simp))
  · exact .inr (hunusable rfl f.message_ne_empty)

end Ingest

end LogSearch
