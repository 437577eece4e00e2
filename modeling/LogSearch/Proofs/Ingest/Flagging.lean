/-
Logs that are flagged for a year that was filled in.

The range of a log says where its years came from if one was filled in on the way. The range is
found by dating lines, wherever the timestamp stands, and the records by dating the lines that
open one, so the two could tell different things. They do not. A year is only filled in where a
glog timestamp stands at the start of a line, and such a line opens a record
(`opens_of_isFilledIn`). And if the windows are as long as the log, no line escapes both of them,
except that the empty rest behind a final line feed may push the first line out of the back
window; the front search looks at that one (`any_windows`).

A log goes by one name here, that of its file or, if it has none, that of its source
(`Timestamp.yearFor`). A range that was found under another name says nothing about the records.
-/
import LogSearch.Proofs.Ingest.Readiness
import LogSearch.Proofs.TimeRange.Ends

set_option autoImplicit false

namespace LogSearch

open Timestamp (isFilledIn)

namespace TimeRange

variable {year : Int}

/-- Two windows, of which each leaves out one line at most, see between them every year that is
filled in. The line that the back window leaves out is the first one, and if it has a time, that
is the time which the front search stops at. -/
theorem any_windows {lines : List String} {count : Nat} (hcount : lines.length ≤ count + 1)
    {first : Timestamp.Stamp} (hfirst : (stamps year (lines.take count)).head? = some first) :
    (first.isGuessed || (lines.drop (lines.length - count)).any (isFilledIn year))
      = lines.any (isFilledIn year) := by
  have hhead := head?_stamps_of_take hfirst
  rw [stamps_eq_append lines (lines.length - count)] at hhead
  rw [← any_stamps, ← any_stamps, stamps_eq_append lines (lines.length - count), List.any_append]
  match hout : stamps year (lines.take (lines.length - count)) with
  | [] =>
    rw [hout, List.nil_append] at hhead
    obtain ⟨others, hothers⟩ := List.head?_eq_some_iff.mp hhead
    rw [hothers]
    simp
  | [stamp] =>
    rw [hout] at hhead
    cases hhead
    simp
  | stamp :: next :: others =>
    have hlength : (stamps year (lines.take (lines.length - count))).length ≤ 1 := by
      refine Nat.le_trans (List.length_filterMap_le _ _) ?_
      rw [List.length_take]
      omega
    rw [hout, List.length_cons, List.length_cons] at hlength
    omega

end TimeRange

namespace Record

variable {year : Int} {source : String}

/-- A glog timestamp stands at the start of a line whose year is filled in. -/
theorem opens_of_isFilledIn {line : Nat × String} (h : isFilledIn year line.2 = true) :
    opens year line = true := by
  obtain ⟨time, hdate⟩ := Timestamp.isFilledIn_iff.mp h
  have hglog : (Timestamp.glog? line.2.toList).isSome = true := by
    rw [Timestamp.date?_eq] at hdate
    cases hloose : (Timestamp.findLoose? line.2.toList).bind (·.time? year) with
    | some t =>
      -- the year is then written in the line
      rw [hloose] at hdate
      cases hdate
    | none =>
      rw [hloose, Option.map_none, Option.none_or] at hdate
      obtain ⟨t, hread, -⟩ := Option.map_eq_some_iff.mp hdate
      obtain ⟨fields, hfields, -⟩ := Option.bind_eq_some_iff.mp hread
      rw [hfields, Option.isSome_some]
  unfold opens Timestamp.startsRecord
  rw [hglog, hdate, Bool.or_true, Option.isSome_some, Bool.and_true]

theorem exists_mem_of_opening {text : String} {line : Nat × String} {stamp : Timestamp.Stamp}
    (hline : line ∈ Text.numberedLines text)
    (hstamp : Timestamp.openingStamp? year line.2 = some stamp) :
    ∃ record ∈ ofText text source year, record.lineNumber = line.1
      ∧ record.timestamp = stamp.time := by
  obtain ⟨before, after, hlines⟩ := List.append_of_mem hline
  have hrecords : ofText text source year
      = (Assembler.begin source year 0).records (before ++ line :: after) := by
    rw [← hlines]
    rfl
  rw [hrecords]
  exact ⟨_, List.mem_of_getElem? (Assembler.records_begin_getElem?_of_split hstamp), rfl, rfl⟩

/-- Whether the year of a record was filled in when its opening line was dated. -/
def IsFilledIn (year : Int) (lines : List (Nat × String)) (record : Record) : Prop :=
  ∃ line ∈ lines, record.lineNumber = line.1
    ∧ Timestamp.date? year line.2 = some ⟨record.timestamp, true⟩

theorem exists_isFilledIn_iff {text : String} :
    (∃ record ∈ ofText text source year, record.IsFilledIn year (Text.numberedLines text))
      ↔ ∃ line ∈ Text.numberedLines text, isFilledIn year line.2 = true := by
  constructor
  · rintro ⟨record, -, line, hline, -, hdate⟩
    exact ⟨line, hline, Timestamp.isFilledIn_iff.mpr ⟨_, hdate⟩⟩
  · rintro ⟨line, hline, hfilled⟩
    obtain ⟨time, hdate⟩ := Timestamp.isFilledIn_iff.mp hfilled
    have hopening := openingStamp?_eq_some_iff.mpr ⟨opens_of_isFilledIn hfilled, hdate⟩
    obtain ⟨record, hrecord, hnumber, htime⟩ := exists_mem_of_opening hline hopening
    exact ⟨record, hrecord, line, hline, hnumber, by rw [htime, hdate]⟩

/-- Under whatever year: what the windows see is what the records tell. -/
theorem yearSource_ne_none_iff {fallback : Timestamp.FallbackYear}
    (hsource : fallback.source ≠ .none) {text : String} {window : Int} {range : TimeRange}
    (hwindow : ((Text.numberedLines text).length : Int) ≤ window)
    (hrange : TimeRange.ofText fallback window text = some range) :
    range.yearSource ≠ .none ↔ ∃ record ∈ ofText text source fallback.year,
      record.IsFilledIn fallback.year (Text.numberedLines text) := by
  obtain ⟨first, last, hfirst, -, rfl⟩ := TimeRange.ofText_eq_some_iff.mp hrange
  have hcount : (Text.splitLines text).length ≤ window.toNat + 1 := by
    have hle := Text.length_splitLines_le text
    omega
  rw [TimeRange.between_yearSource, TimeRange.any_windows hcount hfirst,
    ← TimeRange.any_numberedLines, exists_isFilledIn_iff, Ne, flag_eq_none_iff hsource,
    Bool.not_eq_false, List.any_map, List.any_eq_true]
  rfl

end Record

/-! ## The listing -/

namespace Ingest

variable {env : Environment} {window : Int}

/-- **Flags of what is loaded.** A log that fits into the windows is flagged in the listing exactly
if a search reads a record from it whose year was filled in. -/
theorem leaf_flagged_iff {origin : Origin} {name : String} {data : Bytes} {source : Source}
    (hload : ofFile env window origin name data = .ok source) {leaf : Search.Task × TimeRange}
    (hleaf : leaf ∈ Workspace.leavesOf source) :
    ∃ text, leaf.1.resolve env.hasZstd = .ok text
      ∧ (((Text.numberedLines text).length : Int) ≤ window →
        let year := (Timestamp.yearFor env.currentYear leaf.1.source (some leaf.1.name) none).year
        (leaf.2.yearSource ≠ .none ↔ ∃ record ∈ Record.ofText text leaf.1.source year,
          record.IsFilledIn year (Text.numberedLines text))) := by
  obtain ⟨log, -, text, hread⟩ := Workspace.exists_log_of_mem_leavesOf hload hleaf
  refine ⟨text, hread.resolved, fun hwindow => ?_⟩
  have hrange := (rangeOfText_eq_ok_iff.mp hread.dated).2
  -- loading and searching give the log the same name
  rw [yearFor_eq env.currentYear (hread.source.trans hread.name.symm), hread.name]
  exact Record.yearSource_ne_none_iff (Timestamp.fallbackYear_source_ne_none _ _ _) hwindow hrange

end Ingest

end LogSearch
