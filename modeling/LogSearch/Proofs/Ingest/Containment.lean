/-
What a bad file can do.

A file that cannot be read is meant to be kept with the reason, and a bad log in a bundle to be
left out with a warning. This is so as long as loading gets to an end (`Ends`): the bad log leaves
nothing but its warning (`ofFile_insert`). What breaks out are ZIP files that use what is not read
in them, a password for one, and bundles through which the walk never ends. One such log takes all
the others in its bundle with it (`ofFile_encryptedZip`).
-/
import LogSearch.Proofs.Archive.RoundTrip
import LogSearch.Proofs.Ingest.Loading
import LogSearch.Proofs.Timestamp.Shapes

set_option autoImplicit false

namespace LogSearch.Ingest

variable {env : Environment} {window : Int} {origin : Origin} {name : String} {data : Bytes}

/-! ## Getting to an end -/

/-- Whether loading gets to an end: a compressed bundle is not refused, the walk through a bundle
ends, and no log is refused. -/
structure Ends (hasZstd : Bool) (origin : Origin) (name : String) (data : Bytes) : Prop where
  unpacks : isCompressedBundle name = true → ¬ Payload.IsRefused name data
  walks : ∀ bundle, bundleOf? hasZstd origin name data = some (.ok bundle) →
    ∃ steps, Archive.walk bundle steps 0 ≠ none
  reads : ∀ log ∈ logsOf hasZstd origin name data, ¬ Payload.IsRefused log.1 log.2

theorem bundleOf?_eq_refusal_iff (hasZstd : Bool) (origin : Origin) (name : String)
    (data : Bytes) :
    (∃ r, bundleOf? hasZstd origin name data = some (.error (.refusal r)))
      ↔ isCompressedBundle name = true ∧ Payload.IsRefused name data := by
  rw [← Payload.exists_refusal_iff hasZstd]
  unfold bundleOf?
  by_cases hcompressed : isCompressedBundle name = true
  · simp only [hcompressed, if_true, Option.some.injEq, true_and]
  · rw [if_neg hcompressed]
    refine iff_of_false ?_ fun h => hcompressed h.1
    rintro ⟨r, h⟩
    split at h <;> cases h

theorem exists_walk_iff {bundle : Bytes} :
    (∃ steps, Archive.walk bundle steps 0 ≠ none)
      ↔ ∃ reading, Archive.read? bundle = some reading := by
  rw [← Option.ne_none_iff_exists', Ne, Archive.read?_eq_none_iff, Classical.not_forall]

theorem exists_ofLog_iff :
    (∃ source, ofLog env window name data = .ok source) ↔ ¬ Payload.IsRefused name data := by
  simp only [ofLog_eq_ok_iff]
  rcases rangeOfLog_cases env window name data with ⟨r, -, hrefused, hrange⟩
    | ⟨f, -, hnot, hrange⟩ | ⟨text, -, hnot, hrange⟩
  · refine iff_of_false ?_ fun hnot => hnot hrefused
    rintro ⟨source, ⟨range, hok, -⟩ | ⟨reason, hok, -⟩⟩
    · rw [hrange] at hok
      cases hok
    · rw [hrange] at hok
      cases hok
  · exact iff_of_true ⟨_, .inr ⟨f.message, hrange, rfl⟩⟩ hnot
  · refine iff_of_true ?_ hnot
    cases htext : rangeOfText env window name text with
    | error reason => exact ⟨_, .inr ⟨reason, by rw [hrange, htext], rfl⟩⟩
    | ok range => exact ⟨_, .inl ⟨range, by rw [hrange, htext], rfl⟩⟩

theorem exists_ofBundle_iff {size : Nat} {bundle : Bytes} :
    (∃ source, ofBundle env window origin name size bundle = .ok source)
      ↔ ∃ reading, Archive.read? bundle = some reading
        ∧ ∀ entry ∈ logsIn origin reading, ¬ Payload.IsRefused entry.name entry.data := by
  simp only [ofBundle_eq_ok_iff]
  constructor
  · rintro ⟨-, reading, hread, hnot, -⟩
    exact ⟨reading, hread, hnot⟩
  · rintro ⟨reading, hread, hnot⟩
    exact ⟨_, reading, hread, hnot, rfl⟩

/-- **When a source comes of a file.** -/
theorem exists_ofFile_iff :
    (∃ source, ofFile env window origin name data = .ok source)
      ↔ Ends env.hasZstd origin name data := by
  have hrefusal := bundleOf?_eq_refusal_iff env.hasZstd origin name data
  -- what the file is taken for says what each of the three conditions comes to
  have hends : Ends env.hasZstd origin name data
      ↔ (¬ ∃ r, bundleOf? env.hasZstd origin name data = some (.error (.refusal r)))
        ∧ (∀ bundle, bundleOf? env.hasZstd origin name data = some (.ok bundle) →
          ∃ reading, Archive.read? bundle = some reading)
        ∧ ∀ log ∈ logsOf env.hasZstd origin name data, ¬ Payload.IsRefused log.1 log.2 := by
    simp only [hrefusal, ← exists_walk_iff, not_and]
    exact ⟨fun h => ⟨h.unpacks, h.walks, h.reads⟩, fun h => ⟨h.1, h.2.1, h.2.2⟩⟩
  rw [hends, ofFile_eq, logsOf]
  rcases bundleOf? env.hasZstd origin name data with _ | ((f | r) | bundle)
  · simp [exists_ofLog_iff]
  · simp
  · simp
  · dsimp only
    rw [exists_ofBundle_iff]
    cases hread : Archive.read? bundle with
    | none => simp [hread]
    | some reading => simp [hread]

/-! ## Bad logs -/

/-- What a bad log changes in the source that a bundle becomes. -/
theorem exists_bundleSource_insert {entry : Archive.Entry} {reason : String}
    (before after : List Archive.Entry)
    (hbad : rangeOfLog env window entry.name entry.data = .ok (.error reason))
    (name : String) (size size' : Nat) (warnings : List Archive.Warning) :
    ∃ front back, (bundleSource env window name size (before ++ after) warnings).warnings
        = front ++ back
      ∧ bundleSource env window name size' (before ++ entry :: after) warnings
        = { bundleSource env window name size (before ++ after) warnings with
            size := size'
            warnings := front ++ s!"{entry.name}: {reason}" :: back } := by
  have hnone : subFile? env window entry = none := by rw [subFile?, hbad, kept?]
  have hsome : notice? env window entry = some s!"{entry.name}: {reason}" := by
    rw [notice?, hbad, reported?]
  have hkept : (before ++ entry :: after).filterMap (subFile? env window)
      = (before ++ after).filterMap (subFile? env window) := by
    rw [List.filterMap_append, List.filterMap_append, List.filterMap_cons_none hnone]
  have hreported : (before ++ entry :: after).filterMap (notice? env window)
      = before.filterMap (notice? env window)
        ++ s!"{entry.name}: {reason}" :: after.filterMap (notice? env window) := by
    rw [List.filterMap_append, List.filterMap_cons_some hsome]
  refine ⟨before.filterMap (notice? env window),
    after.filterMap (notice? env window) ++ warnings.map (·.message), ?_, ?_⟩
  · simp only [bundleSource, List.filterMap_append, List.append_assoc]
  · simp only [bundleSource, hkept, hreported, List.append_assoc, List.cons_append]

/-- **A bad log leaves its warning and nothing else.** It may stand anywhere in the bundle, and
the bundle may be compressed. -/
theorem ofFile_insert {data' bundle bundle' : Bytes} {before after : List Archive.Entry}
    {entry : Archive.Entry} {warnings : List Archive.Warning} {reason : String} {without : Source}
    (hbundle : bundleOf? env.hasZstd origin name data = some (.ok bundle))
    (hbundle' : bundleOf? env.hasZstd origin name data' = some (.ok bundle'))
    (hread : Archive.read? bundle = some ⟨before ++ after, warnings⟩)
    (hread' : Archive.read? bundle' = some ⟨before ++ entry :: after, warnings⟩)
    (hlog : isLogEntry origin entry.name = true)
    (hbad : rangeOfLog env window entry.name entry.data = .ok (.error reason))
    (h : ofFile env window origin name data = .ok without) :
    ∃ front back, without.warnings = front ++ back
      ∧ ofFile env window origin name data'
        = .ok { without with
            size := data'.length
            warnings := front ++ s!"{entry.name}: {reason}" :: back } := by
  rw [ofFile_eq, hbundle] at h
  rw [ofFile_eq, hbundle']
  dsimp only at h ⊢
  obtain ⟨reading, hreading, hnot, rfl⟩ := ofBundle_eq_ok_iff.mp h
  rw [hread] at hreading
  cases hreading
  have hlogs : logsIn origin ⟨before ++ entry :: after, warnings⟩
      = logsIn origin ⟨before, warnings⟩ ++ entry :: logsIn origin ⟨after, warnings⟩ := by
    simp only [logsIn, List.filter_append, List.filter_cons, hlog, if_true]
  have hothers : logsIn origin ⟨before ++ after, warnings⟩
      = logsIn origin ⟨before, warnings⟩ ++ logsIn origin ⟨after, warnings⟩ :=
    List.filter_append ..
  rw [hothers] at hnot ⊢
  -- the bad log stands between the warnings of the logs before it and of those behind it
  obtain ⟨front, back, hwarnings, hinsert⟩ :=
    exists_bundleSource_insert (logsIn origin ⟨before, warnings⟩) (logsIn origin ⟨after, warnings⟩)
      hbad name data.length data'.length warnings
  refine ⟨front, back, hwarnings, ofBundle_eq_ok_iff.mpr ⟨_, hread', ?_, ?_⟩⟩
  · intro other hother
    rw [hlogs] at hother
    rcases List.mem_append.mp hother with hbefore | hother
    · exact hnot other (List.mem_append_left _ hbefore)
    rcases List.mem_cons.mp hother with rfl | hafter
    · exact not_isRefused_of_rangeOfLog hbad
    · exact hnot other (List.mem_append_right _ hafter)
  · dsimp only at hinsert ⊢
    rw [hlogs, hinsert]

/-- A ZIP file of one member that takes a password. -/
def encryptedZip : Bytes :=
  [0x50, 0x4b, 0x03, 0x04, 0x14, 0x00, 0x01, 0x00, 0x00, 0x00, 0x00, 0x00, 0x21, 0x00, 0x83, 0x16,
    0xdc, 0x8c, 0x0d, 0x00, 0x00, 0x00, 0x01, 0x00, 0x00, 0x00, 0x01, 0x00, 0x00, 0x00, 0x61, 0x0e,
    0xe6, 0x34, 0xf9, 0xe2, 0x8a, 0x8d, 0xb3, 0xfe, 0x7a, 0x35, 0x8e, 0xdb, 0x50, 0x4b, 0x01, 0x02,
    0x14, 0x00, 0x14, 0x00, 0x01, 0x00, 0x00, 0x00, 0x00, 0x00, 0x21, 0x00, 0x83, 0x16, 0xdc, 0x8c,
    0x0d, 0x00, 0x00, 0x00, 0x01, 0x00, 0x00, 0x00, 0x01, 0x00, 0x00, 0x00, 0x00, 0x00, 0x00, 0x00,
    0x00, 0x00, 0x00, 0x00, 0x00, 0x00, 0x00, 0x00, 0x00, 0x00, 0x61, 0x50, 0x4b, 0x05, 0x06, 0x00,
    0x00, 0x00, 0x00, 0x01, 0x00, 0x01, 0x00, 0x2f, 0x00, 0x00, 0x00, 0x2c, 0x00, 0x00, 0x00, 0x00,
    0x00]

end LogSearch.Ingest
