/-
The range of a log against its records.

The range is read off the first and the last line with a time, wherever in these lines it
stands. Records have the times of their opening lines only. So the two see the same first time
unless a line in front of the first record has one too, and the same last time unless a line
behind the last opening line does. These two quoted times decide everything: dates in the
middle of the log never matter.

How many lines are looked at does not occur below. A range is only found if a time is found
from both ends, and then these are the first and the last time of the whole log
(`exists_of_ofText_eq_some`).
-/
import LogSearch.Proofs.Record.Partition
import LogSearch.Proofs.TimeRange.Ends
import LogSearch.Search.Window

set_option autoImplicit false

namespace LogSearch

open Calendar (DateTime)

namespace Record

variable {year : Int} {lines : List (Nat × String)}

/-- The time of a line, if it has one. -/
def timeOf? (year : Int) (line : Nat × String) : Option DateTime :=
  (Timestamp.date? year line.2).map (·.time)

/-- The times that some lines have. -/
def times (year : Int) (lines : List (Nat × String)) : List DateTime :=
  lines.filterMap (timeOf? year)

/-- The lines behind the last opening line. -/
def ending (year : Int) (lines : List (Nat × String)) : List (Nat × String) :=
  (following year lines.reverse).reverse

/-- The time with which a log begins, given that of its first record: one that is quoted in
front of that record comes first. -/
def frontTime (year : Int) (lines : List (Nat × String)) (first : DateTime) : DateTime :=
  (times year (following year lines)).head?.getD first

/-- The time with which a log ends, given that of its last record: one that is quoted behind
the opening line of that record comes last. -/
def backTime (year : Int) (lines : List (Nat × String)) (last : DateTime) : DateTime :=
  (times year (ending year lines)).getLast?.getD last

/-! ## The times of a log -/

theorem times_reverse (lines : List (Nat × String)) :
    times year lines.reverse = (times year lines).reverse :=
  List.filterMap_reverse

/-- The plain lines have the same times as the numbered ones. -/
theorem times_numberedLines (text : String) :
    times year (Text.numberedLines text)
      = (TimeRange.stamps year (Text.splitLines text)).map (·.time) := by
  rw [← TimeRange.stamps_numberedLines, TimeRange.stamps, List.filterMap_map, List.map_filterMap]
  rfl

/-- An opening line has a time. -/
theorem exists_timeOf?_of_opens {line : Nat × String} (h : opens year line = true) :
    ∃ stamp, Timestamp.openingStamp? year line.2 = some stamp
      ∧ timeOf? year line = some stamp.time := by
  obtain ⟨stamp, hstamp⟩ := exists_openingStamp? h
  refine ⟨stamp, hstamp, ?_⟩
  rw [timeOf?, (openingStamp?_eq_some_iff.mp hstamp).2, Option.map_some]

/-- The times of the records are those of the opening lines. -/
theorem timestamps_records_begin {source : String} {count : Nat} (lines : List (Nat × String)) :
    ((Assembler.begin source year count).records lines).map Record.timestamp
      = times year (lines.filter (opens year)) := by
  induction lines generalizing count with
  | nil => rfl
  | cons line lines ih =>
    cases h : opens year line with
    | false =>
      rw [Assembler.records_begin_skipped h, ih, List.filter_cons_of_neg (by rw [h]; decide)]
    | true =>
      obtain ⟨stamp, hstamp, htime⟩ := exists_timeOf?_of_opens h
      rw [Assembler.records_begin_opening hstamp, List.map_cons, ih,
        List.filter_cons_of_pos h, times, times, List.filterMap_cons_some htime]

/-- The first time of a log, seen from its first record. The lines in front of the record are
those in front of the first opening line, and that line has a time. -/
theorem head?_times {first : DateTime}
    (h : (times year (lines.filter (opens year))).head? = some first) :
    (times year lines).head? = some (frontTime year lines first) := by
  unfold frontTime
  -- Up to the first opening line both sides look for a time in the same lines.
  induction lines with
  | nil => cases h
  | cons line lines ih =>
    cases hopens : opens year line with
    | false =>
      rw [List.filter_cons_of_neg (by rw [hopens]; decide)] at h
      rw [following_cons_of_not_opens hopens, times, times]
      cases htime : timeOf? year line with
      | none =>
        rw [List.filterMap_cons_none htime, List.filterMap_cons_none htime]
        exact ih h
      | some t =>
        rw [List.filterMap_cons_some htime, List.filterMap_cons_some htime]
        rfl
    | true =>
      obtain ⟨stamp, -, htime⟩ := exists_timeOf?_of_opens hopens
      rw [List.filter_cons_of_pos hopens, times, List.filterMap_cons_some htime] at h
      rw [following_cons_of_opens hopens, times, List.filterMap_cons_some htime]
      exact h

/-- The last time of a log, seen from its last record. -/
theorem getLast?_times {last : DateTime}
    (h : (times year (lines.filter (opens year))).getLast? = some last) :
    (times year lines).getLast? = some (backTime year lines last) := by
  rw [← List.head?_reverse, ← times_reverse, ← List.filter_reverse] at h
  rw [← List.head?_reverse, ← times_reverse, head?_times h, frontTime, backTime, ending,
    times_reverse, List.getLast?_reverse]

end Record

/-! ## The range of a log -/

namespace TimeRange

variable {year : Int}

/-- The range of a text lies between the first and the last time of its lines. -/
theorem exists_of_ofText_eq_some {fallback : Timestamp.FallbackYear} {window : Int}
    {text : String} {range : TimeRange} (h : ofText fallback window text = some range) :
    ∃ front back yearSource,
      (Record.times fallback.year (Text.numberedLines text)).head? = some front
      ∧ (Record.times fallback.year (Text.numberedLines text)).getLast? = some back
      ∧ range = between front back yearSource := by
  obtain ⟨first, last, hfirst, hlast, rfl⟩ := ofText_eq_some_iff.mp h
  refine ⟨first.time, last.time, _, ?_, ?_, rfl⟩
  · rw [Record.times_numberedLines, List.head?_map, head?_stamps_of_take hfirst]
    rfl
  · rw [Record.times_numberedLines, List.getLast?_map, getLast?_stamps_of_drop hlast]
    rfl

/-- The window of a search over all of a range. -/
def window (r : TimeRange) : Search.Window :=
  ⟨some r.start, some r.stop⟩

theorem window_contains_iff (r : TimeRange) (t : DateTime) :
    r.window.contains t = true ↔ r.start ≤ t ∧ t ≤ r.stop := by
  unfold window Search.Window.contains
  rw [Bool.and_eq_true, Option.all_some, Option.all_some, decide_eq_true_eq, decide_eq_true_eq]

/-- A range between two times holds what lies between them, in one order or the other. -/
theorem between_contains_iff (s t time : DateTime) (yearSource : YearSource) :
    (between s t yearSource).window.contains time = true
      ↔ (s ≤ time ∧ time ≤ t) ∨ (t ≤ time ∧ time ≤ s) := by
  rw [window_contains_iff]
  unfold between
  by_cases h : s ≤ t
  · rw [dif_pos h]
    simp only [DateTime.le_iff] at h ⊢
    omega
  · rw [dif_neg h]
    simp only [DateTime.le_iff] at h ⊢
    omega

end TimeRange

namespace Record

/-! ## Records in the range -/

section Sorted

variable {records : List Record} {first last record : Record}

theorem head_le_of_mem (hsorted : records.Pairwise fun a b => a.timestamp ≤ b.timestamp)
    (hfirst : first ∈ records.head?) (h : record ∈ records) :
    first.timestamp ≤ record.timestamp := by
  obtain ⟨others, rfl⟩ := List.head?_eq_some_iff.mp hfirst
  rcases List.mem_cons.mp h with rfl | hother
  · exact Nat.le_refl _
  · exact List.rel_of_pairwise_cons hsorted hother

theorem le_getLast_of_mem (hsorted : records.Pairwise fun a b => a.timestamp ≤ b.timestamp)
    (hlast : last ∈ records.getLast?) (h : record ∈ records) :
    record.timestamp ≤ last.timestamp := by
  obtain ⟨others, rfl⟩ := List.getLast?_eq_some_iff.mp hlast
  rcases List.mem_append.mp h with hother | hother
  · exact (List.pairwise_append.mp hsorted).2.2 record hother last List.mem_cons_self
  · rw [List.mem_singleton.mp hother]
    exact Nat.le_refl _

/-- Records in order lie between two times exactly if the first and the last of them do. -/
theorem forall_contains_iff (hsorted : records.Pairwise fun a b => a.timestamp ≤ b.timestamp)
    (s t : DateTime) (yearSource : YearSource) :
    (∀ record ∈ records, (TimeRange.between s t yearSource).window.contains record.timestamp = true)
      ↔ ∀ first ∈ records.head?, ∀ last ∈ records.getLast?,
        (s ≤ first.timestamp ∧ last.timestamp ≤ t)
          ∨ (t ≤ first.timestamp ∧ last.timestamp ≤ s) := by
  simp only [TimeRange.between_contains_iff]
  constructor
  · intro h first hfirst last hlast
    have hlow := h first (List.mem_of_head? hfirst)
    have hhigh := h last (List.mem_of_getLast? hlast)
    have hle := head_le_of_mem hsorted hfirst (List.mem_of_getLast? hlast)
    simp only [DateTime.le_iff] at hlow hhigh hle ⊢
    omega
  · intro h record hrecord
    have hne : records ≠ [] := List.ne_nil_of_mem hrecord
    have hfirst := head_le_of_mem hsorted (List.head_mem_head? hne) hrecord
    have hlast := le_getLast_of_mem hsorted (List.getLast_mem_getLast? hne) hrecord
    have hbounds := h _ (List.head_mem_head? hne) _ (List.getLast_mem_getLast? hne)
    simp only [DateTime.le_iff] at hfirst hlast hbounds ⊢
    omega

end Sorted

/-- **Which logs lie in their own range.** Records that are in order lie in the range of their
log exactly if the times with which the log begins and ends enclose those of the first and of
the last record. These are the same times unless one is quoted in front of the first record or
behind the opening line of the last; what is quoted elsewhere never matters. -/
theorem contains_iff_bounds {text source : String} {currentYear : Nat} {fileName : Option String}
    {named : Option Int} {window : Int} {range : TimeRange}
    (hyear : (Timestamp.yearFor currentYear source fileName named).year
      = (Timestamp.fallbackYear currentYear fileName named).year)
    (hrange : TimeRange.ofText (Timestamp.fallbackYear currentYear fileName named) window text
      = some range)
    (hsorted : (ofText text source (Timestamp.yearFor currentYear source fileName named).year).Pairwise
      fun a b => a.timestamp ≤ b.timestamp) :
    let year := (Timestamp.yearFor currentYear source fileName named).year
    let lines := Text.numberedLines text
    let records := ofText text source year
    (∀ record ∈ records, range.window.contains record.timestamp = true)
      ↔ ∀ first ∈ records.head?, ∀ last ∈ records.getLast?,
        let front := frontTime year lines first.timestamp
        let back := backTime year lines last.timestamp
        (front ≤ first.timestamp ∧ last.timestamp ≤ back)
          ∨ (back ≤ first.timestamp ∧ last.timestamp ≤ front) := by
  intro year lines records
  obtain ⟨front, back, yearSource, hfront, hback, rfl⟩ := TimeRange.exists_of_ofText_eq_some hrange
  rw [← hyear] at hfront hback
  have htimes : records.map Record.timestamp = times year (lines.filter (opens year)) :=
    timestamps_records_begin lines
  rw [forall_contains_iff hsorted]
  refine forall₂_congr fun first hfirst => forall₂_congr fun last hlast => ?_
  have hfirstTime : (times year (lines.filter (opens year))).head? = some first.timestamp := by
    rw [← htimes, List.head?_map, hfirst]
    rfl
  have hlastTime : (times year (lines.filter (opens year))).getLast? = some last.timestamp := by
    rw [← htimes, List.getLast?_map, hlast]
    rfl
  -- With the times of the log put in, both sides say the same.
  rw [head?_times hfirstTime] at hfront
  rw [getLast?_times hlastTime] at hback
  cases hfront
  cases hback
  exact Iff.rfl

/-- A log that quotes times in front of its first record, between its records and behind the
last one. -/
theorem contains_iff_bounds_quotedTimes :
    let text := "> 2024-01-02 09:00:00\n2024-01-02 10:00:00 a\n> 2019-05-06 07:08:09\n"
      ++ "2024-01-02 12:00:00 b\n> 2024-01-02 13:00:00\n"
    let year := Timestamp.fallbackYear 2026 (some "a.log") none
    ∃ range, TimeRange.ofText year 6 text = some range
      ∧ ∀ record ∈ ofText text "a.log" year.year,
        range.window.contains record.timestamp = true := by
  intro text year
  have hrange : TimeRange.ofText year 6 text
      = some ⟨⟨⟨2024, 1, 2, by decide⟩, 9, 0, 0, 0, by decide⟩,
        ⟨⟨2024, 1, 2, by decide⟩, 13, 0, 0, 0, by decide⟩, .none, by decide⟩ := by
    decide +kernel
  have hsorted : (ofText text "a.log" (Timestamp.yearFor 2026 "a.log" (some "a.log") none).year).Pairwise
      fun a b => a.timestamp ≤ b.timestamp := by
    decide +kernel
  exact ⟨_, hrange, (contains_iff_bounds rfl hrange hsorted).mpr (by decide +kernel)⟩

/-- A date that is quoted behind the last record is earlier than the record, so the range ends
in front of it. And a log without a name gets its year from its source, which the range is not
told. -/
theorem not_contains_of_quoted_end :
    (let text := "2024-01-02 10:00:00 a\n2024-01-02 12:00:00 b\n> 2024-01-02 11:00:00"
    let records := ofText text "a.log" (Timestamp.yearFor 2026 "a.log" (some "a.log") none).year
    (records.Pairwise fun a b => a.timestamp ≤ b.timestamp)
      ∧ ∃ range, TimeRange.ofText (Timestamp.fallbackYear 2026 (some "a.log") none) 3 text = some range
        ∧ ∃ record ∈ records, range.window.contains record.timestamp = false)
    ∧ (let text := "I0102 03:04:05.678 a"
      let records := ofText text "a-20190102.log" (Timestamp.yearFor 2026 "a-20190102.log" none none).year
      (records.Pairwise fun a b => a.timestamp ≤ b.timestamp)
        ∧ ∃ range, TimeRange.ofText (Timestamp.fallbackYear 2026 none none) 1 text = some range
          ∧ ∃ record ∈ records, range.window.contains record.timestamp = false) := by
  constructor
  · intro text records
    refine ⟨by decide +kernel, ⟨⟨⟨2024, 1, 2, by decide⟩, 10, 0, 0, 0, by decide⟩,
      ⟨⟨2024, 1, 2, by decide⟩, 11, 0, 0, 0, by decide⟩, .none, by decide⟩, ?_⟩
    exact ⟨by decide +kernel, by decide +kernel⟩
  · intro text records
    refine ⟨by decide +kernel, ⟨⟨⟨2026, 1, 2, by decide⟩, 3, 4, 5, 678000, by decide⟩,
      ⟨⟨2026, 1, 2, by decide⟩, 3, 4, 5, 678000, by decide⟩, .clock, by decide⟩, ?_⟩
    exact ⟨by decide +kernel, by decide +kernel⟩

end Record

end LogSearch
