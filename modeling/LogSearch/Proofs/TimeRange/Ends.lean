/-
The range of a text, found from both of its ends.

The text is not cut up for this: one search walks over its first lines and stops at the first
time, the other walks over its last lines. Measured by the plain cut at every line feed, the two
ask for the first time of a front part of the lines and for the last time of a back part, however
these overlap (`ofText_eq_some_iff`).

Both searches fill in the year of a timestamp without one, and the range tells if either had to.
The front search passes only lines without a time before it stops, so all that it can fill in is
the year of the time that it finds (`any_untilFirst`). The back search looks at all of its lines.
-/
import LogSearch.Proofs.Text.Lines
import LogSearch.Proofs.Timestamp.Shapes
import LogSearch.TimeRange

set_option autoImplicit false

namespace LogSearch

open Calendar (DateTime)

namespace Timestamp

/-- Whether the time of a line has a year that is filled in. -/
def isFilledIn (year : Int) (line : String) : Bool :=
  (date? year line).any (·.isGuessed)

theorem isFilledIn_iff {year : Int} {line : String} :
    isFilledIn year line = true ↔ ∃ time, date? year line = some ⟨time, true⟩ := by
  unfold isFilledIn
  rw [Option.any_eq_true]
  constructor
  · rintro ⟨⟨time, isGuessed⟩, hdate, hguessed⟩
    cases hguessed
    exact ⟨time, hdate⟩
  · rintro ⟨time, hdate⟩
    exact ⟨_, hdate, rfl⟩

/-- A year that is filled in always has a source. -/
theorem fallbackYear_source_ne_none (currentYear : Nat) (fileName : Option String)
    (named : Option Int) : (fallbackYear currentYear fileName named).source ≠ .none := by
  unfold fallbackYear
  split
  · simp
  · split <;> simp

end Timestamp

section Flag

variable {source : YearSource} {isFilled : Bool}

/-- What a range tells of its years: the source of a year, if one was filled in. -/
theorem flag_eq_none_iff (h : source ≠ .none) :
    (if isFilled then source else .none) = .none ↔ isFilled = false := by
  cases isFilled with
  | false => simp
  | true => simpa using h

theorem flag_eq_of_ne_none (h : (if isFilled then source else .none) ≠ .none) :
    (if isFilled then source else .none) = source := by
  cases isFilled with
  | false => exact absurd rfl h
  | true => rfl

end Flag

open Timestamp (isFilledIn)

namespace TimeRange

variable {year : Int}

/-! ## The times of some lines -/

theorem firstStamp_eq_head? (lines : List String) :
    firstStamp year lines = (stamps year lines).head? := by
  induction lines with
  | nil => rfl
  | cons line lines ih =>
    rw [firstStamp, stamps]
    cases hdate : Timestamp.date? year line with
    | none =>
      rw [List.filterMap_cons_none hdate, Option.none_or]
      exact ih
    | some stamp =>
      rw [List.filterMap_cons_some hdate]
      rfl

/-- Lines that are cut in two have their times on both sides of the cut. -/
theorem stamps_eq_append (lines : List String) (count : Nat) :
    stamps year lines = stamps year (lines.take count) ++ stamps year (lines.drop count) := by
  rw [stamps, stamps, stamps, ← List.filterMap_append, List.take_append_drop]

/-- A time among the first lines is the first time of all lines. -/
theorem head?_stamps_of_take {lines : List String} {count : Nat} {stamp : Timestamp.Stamp}
    (h : (stamps year (lines.take count)).head? = some stamp) :
    (stamps year lines).head? = some stamp := by
  rw [stamps_eq_append lines count, List.head?_append, h, Option.some_or]

/-- A time among the last lines is the last time of all lines. -/
theorem getLast?_stamps_of_drop {lines : List String} {count : Nat} {stamp : Timestamp.Stamp}
    (h : (stamps year (lines.drop count)).getLast? = some stamp) :
    (stamps year lines).getLast? = some stamp := by
  rw [stamps_eq_append lines count, List.getLast?_append, h, Option.some_or]

theorem stamps_numberedLines (text : String) :
    stamps year ((Text.numberedLines text).map Prod.snd) = stamps year (Text.splitLines text) := by
  -- the two cuts differ by an empty rest and by returns, and neither makes a time
  have hempty : Timestamp.date? year "" = none := rfl
  have hreturn : ∀ cs, Timestamp.date? year (String.ofList (Text.dropReturn cs))
      = Timestamp.date? year (String.ofList cs) := by
    intro cs
    unfold Text.dropReturn
    split
    · rename_i hlast
      obtain ⟨front, rfl⟩ := List.getLast?_eq_some_iff.mp hlast
      rw [List.dropLast_concat]
      exact (Timestamp.date?_concat year (by decide +kernel)).symm
    · rfl
  exact Text.filterMap_numberedLines hempty hreturn text

theorem any_stamps (lines : List String) :
    (stamps year lines).any (·.isGuessed) = lines.any (isFilledIn year) := by
  induction lines with
  | nil => rfl
  | cons line lines ih =>
    rw [stamps, List.any_cons, ← ih]
    cases hdate : Timestamp.date? year line with
    | none => simp [hdate, isFilledIn, stamps]
    | some stamp => simp [hdate, isFilledIn, stamps]

theorem any_numberedLines (text : String) :
    ((Text.numberedLines text).map Prod.snd).any (isFilledIn year)
      = (Text.splitLines text).any (isFilledIn year) := by
  rw [← any_stamps, ← any_stamps, stamps_numberedLines]

/-- The lines up to the first one with a time, that one included. -/
def untilFirst (year : Int) : List String → List String
  | [] => []
  | line :: lines =>
    if (Timestamp.date? year line).isSome then [line] else line :: untilFirst year lines

/-- Of the lines up to the first time, only the last one can have a year that is filled in. -/
theorem any_untilFirst {lines : List String} {stamp : Timestamp.Stamp}
    (h : (stamps year lines).head? = some stamp) :
    (untilFirst year lines).any (isFilledIn year) = stamp.isGuessed := by
  induction lines with
  | nil => cases h
  | cons line lines ih =>
    rw [stamps] at h
    cases hdate : Timestamp.date? year line with
    | none =>
      rw [List.filterMap_cons_none hdate] at h
      have hline : isFilledIn year line = false := by simp [isFilledIn, hdate]
      rw [untilFirst, if_neg (by simp [hdate]), List.any_cons, hline, Bool.false_or]
      exact ih h
    | some first =>
      rw [List.filterMap_cons_some hdate] at h
      cases h
      rw [untilFirst, if_pos (by simp [hdate])]
      simp [isFilledIn, hdate]

/-! ## Two times in order -/

/-- Two times, the earlier one in front. -/
def inOrder (s t : DateTime) : DateTime × DateTime :=
  if t < s then (t, s) else (s, t)

theorem ofBounds_inOrder (s t : DateTime) (yearSource : YearSource) :
    ofBounds (inOrder s t).1 (inOrder s t).2 yearSource = .ok (between s t yearSource) := by
  -- one of the two orders passes the check, and it is the one that is taken
  unfold inOrder between ofBounds
  by_cases h : s ≤ t
  · have hlt : ¬ t < s := Nat.not_lt.mpr h
    simp only [if_neg hlt, dif_pos h]
  · have hlt : t < s := Nat.lt_of_not_le h
    have hle : t ≤ s := Nat.le_of_lt hlt
    simp only [if_pos hlt, dif_pos hle, dif_neg h]

theorem between_yearSource (s t : DateTime) (yearSource : YearSource) :
    (between s t yearSource).yearSource = yearSource := by
  unfold between
  split <;> rfl

/-! ## The range of a text -/

/-- A text has a range if a time is found from both ends. The lines that are looked at are told
in terms of the plain cut. -/
theorem ofText_eq_some_iff {fallback : Timestamp.FallbackYear} {window : Int} {text : String}
    {range : TimeRange} :
    let lines := Text.splitLines text
    let back := lines.drop (lines.length - window.toNat)
    ofText fallback window text = some range
      ↔ ∃ first last, (stamps fallback.year (lines.take window.toNat)).head? = some first
        ∧ (stamps fallback.year back).getLast? = some last
        ∧ range = between first.time last.time
          (if first.isGuessed || back.any (isFilledIn fallback.year) then fallback.source
            else .none) := by
  intro lines back
  unfold ofText
  simp only [firstStamp_eq_head?, Text.firstLines_eq_take, Text.lastLines_eq_drop, any_stamps]
  split
  · rename_i first last hfirst hlast
    constructor
    · intro h
      exact ⟨first, last, hfirst, hlast, (Option.some.inj h).symm⟩
    · rintro ⟨first', last', hfirst', hlast', rfl⟩
      rw [hfirst] at hfirst'
      rw [hlast] at hlast'
      cases hfirst'
      cases hlast'
      rfl
  · rename_i hmissing
    constructor
    · intro h
      cases h
    · rintro ⟨first, last, hfirst, hlast, -⟩
      exact absurd hlast (hmissing first last hfirst)

/-- **The range of a text by its plain cut.** There is no range exactly if no time is found among
the first lines or none among the last ones. Otherwise the range goes from the earlier to the
later of the first time of the first lines and the last time of the last lines, which always
passes the check of its bounds. Its years are certain exactly if no year was filled in, neither
in a line up to the first time nor in any of the last lines; else it tells where the year came
from. -/
theorem ofText_plain (text : String) (currentYear : Nat) (fileName : Option String)
    (named : Option Int) (window : Int) :
    let fallback := Timestamp.fallbackYear currentYear fileName named
    let lines := Text.splitLines text
    let count := (max 0 window).toNat
    let front := lines.take count
    let back := lines.drop (lines.length - count)
    let first := (front.filterMap (Timestamp.date? fallback.year)).head?
    let last := (back.filterMap (Timestamp.date? fallback.year)).getLast?
    (ofText fallback window text = none ↔ first = none ∨ last = none)
      ∧ ∀ s ∈ first, ∀ e ∈ last, ∃ range, ofText fallback window text = some range
        ∧ ofBounds (inOrder s.time e.time).1 (inOrder s.time e.time).2 range.yearSource = .ok range
        ∧ (range.yearSource = .none
          ↔ ∀ line ∈ untilFirst fallback.year front ++ back, isFilledIn fallback.year line = false)
        ∧ (range.yearSource ≠ .none → range.yearSource = fallback.source) := by
  intro fallback lines count front back first last
  have hcount : count = window.toNat := by omega
  -- where both times are found, there is a range, and it is told by them
  have hrange : ∀ s e, first = some s → last = some e → ∃ range,
      ofText fallback window text = some range
        ∧ ofBounds (inOrder s.time e.time).1 (inOrder s.time e.time).2 range.yearSource = .ok range
        ∧ range.yearSource = if s.isGuessed || back.any (isFilledIn fallback.year)
          then fallback.source else .none := by
    intro s e hs he
    refine ⟨_, ofText_eq_some_iff.mpr ⟨s, e, ?_, ?_, rfl⟩, ?_, ?_⟩
    · rwa [← hcount]
    · rwa [← hcount]
    · rw [between_yearSource]
      exact ofBounds_inOrder s.time e.time _
    · rw [between_yearSource, ← hcount]
  constructor
  · constructor
    · intro hnone
      refine Classical.byContradiction fun hfound => ?_
      rw [not_or] at hfound
      obtain ⟨s, hs⟩ := Option.ne_none_iff_exists'.mp hfound.1
      obtain ⟨e, he⟩ := Option.ne_none_iff_exists'.mp hfound.2
      obtain ⟨range, hsome, -⟩ := hrange s e hs he
      rw [hnone] at hsome
      cases hsome
    · intro hmissing
      apply Option.eq_none_iff_forall_ne_some.mpr
      intro range hsome
      obtain ⟨s, e, hs, he, -⟩ := ofText_eq_some_iff.mp hsome
      rw [← hcount] at hs he
      rcases hmissing with hfirst | hlast
      · exact absurd (hs.symm.trans hfirst) nofun
      · exact absurd (he.symm.trans hlast) nofun
  · intro s hs e he
    obtain ⟨range, hsome, hbounds, hsource⟩ := hrange s e hs he
    rw [← any_untilFirst hs, ← List.any_append] at hsource
    refine ⟨range, hsome, hbounds, ?_, ?_⟩
    · -- a year that is filled in has a source, so the two cases cannot be mixed up
      have hfallback : fallback.source ≠ .none :=
        Timestamp.fallbackYear_source_ne_none currentYear fileName named
      rw [hsource, flag_eq_none_iff hfallback, List.any_eq_false]
      simp only [Bool.not_eq_true]
    · intro hflagged
      rw [hsource] at hflagged ⊢
      exact flag_eq_of_ne_none hflagged

/-- Windows that overlap in the middle line, and times that are the wrong way round: the year of
the first one is filled in, and so the range is not certain of it. -/
theorem ofText_plain_crossed :
    let fallback := Timestamp.fallbackYear 2026 (some "app-20240102.log") none
    let text := "I0102 03:04:06.500 b\r\nc\n2024-01-02 03:04:05 a"
    let early : DateTime := ⟨⟨2024, 1, 2, by decide⟩, 3, 4, 5, 0, by decide⟩
    let late : DateTime := ⟨⟨2024, 1, 2, by decide⟩, 3, 4, 6, 500000, by decide⟩
    ∃ range, ofText fallback 2 text = some range
      ∧ ofBounds early late range.yearSource = .ok range
      ∧ range.yearSource = .filename := by
  intro fallback text early late
  let lines := Text.splitLines text
  have hfirst : (⟨late, true⟩ : Timestamp.Stamp)
      ∈ ((lines.take 2).filterMap (Timestamp.date? fallback.year)).head? := by decide +kernel
  have hlast : (⟨early, false⟩ : Timestamp.Stamp)
      ∈ ((lines.drop (lines.length - 2)).filterMap (Timestamp.date? fallback.year)).getLast? := by
    decide +kernel
  obtain ⟨range, hrange, hbounds, hsure, hsource⟩ :=
    (ofText_plain text 2026 (some "app-20240102.log") none 2).2 _ hfirst _ hlast
  have horder : inOrder late early = (early, late) := by decide +kernel
  rw [horder] at hbounds
  refine ⟨range, hrange, hbounds, hsource fun hnone => ?_⟩
  have hfilled := hsure.mp hnone "I0102 03:04:06.500 b\r" (by decide +kernel)
  exact absurd hfilled (by decide +kernel)

end TimeRange

end LogSearch
