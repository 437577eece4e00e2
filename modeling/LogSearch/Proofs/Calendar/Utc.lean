/-
Times as a log server wants them.

A time has a form for log servers if there is a time in the calendar that a clock in UTC shows,
and then it is the form of that one (`utc_eq_ok_iff`). What the form loses and what it keeps is
told in terms of the time in UTC.

It keeps the order. With a year of four digits all numbers in it have their full widths and stand
from the year down to the milliseconds, so texts are compared as the numbers are
(`Text.row_lt_row_iff`), and the numbers as the times (`numbers_lt_iff`). The two ends of this,
that the form can be read back and that it sorts, break at the same place, where a year is
written with fewer digits.
-/
import LogSearch.Calendar.Utc
import LogSearch.Proofs.Calendar.Counting
import LogSearch.Proofs.Calendar.Reading
import Mathlib

set_option autoImplicit false

namespace LogSearch.Calendar

namespace DateTime

variable {s t : DateTime}

/-! ## Milliseconds -/

theorem toMicros_inMillis (t : DateTime) : t.inMillis.toMicros = t.toMicros / 1000 * 1000 := by
  unfold toMicros microsOfDay inMillis microsPerDay
  dsimp only
  omega

/-- The numbers of a time, from the year down to the milliseconds. -/
def numbers (t : DateTime) : List Nat :=
  [t.date.year, t.date.month, t.date.day, t.hour, t.minute, t.second, t.micro / 1000]

/-- The numbers of a clock are in lexicographic order exactly if the milliseconds of the day are. -/
theorem clock_lt_iff : s.microsOfDay / 1000 < t.microsOfDay / 1000
    ↔ s.hour < t.hour ∨ s.hour = t.hour ∧ (s.minute < t.minute ∨ s.minute = t.minute
      ∧ (s.second < t.second ∨ s.second = t.second ∧ s.micro / 1000 < t.micro / 1000)) := by
  have hs := s.isTime
  have ht := t.isTime
  unfold microsOfDay
  omega

theorem millis_lt_iff : s.toMicros / 1000 < t.toMicros / 1000
    ↔ s.date.dayNumber < t.date.dayNumber
      ∨ s.date = t.date ∧ s.microsOfDay / 1000 < t.microsOfDay / 1000 := by
  have hs := s.microsOfDay_lt
  have ht := t.microsOfDay_lt
  have hday : s.date = t.date ↔ s.date.dayNumber = t.date.dayNumber :=
    ⟨fun h => congrArg Date.dayNumber h, eq_of_dayNumber_eq⟩
  rw [hday]
  unfold toMicros microsPerDay at *
  omega

/-- The numbers of times are in lexicographic order exactly if their milliseconds are. -/
theorem numbers_lt_iff : s.numbers < t.numbers ↔ s.toMicros / 1000 < t.toMicros / 1000 := by
  rw [millis_lt_iff, dayNumber_lt_iff, clock_lt_iff, Date.ext_iff]
  simp only [numbers, List.cons_lt_cons_iff, List.not_lt_nil, and_false, or_false]
  tauto

/-! ## The form for log servers -/

/-- The widths of the numbers, with the marks behind them. -/
def serverShape : List (Nat × Char) :=
  [(4, '-'), (2, '-'), (2, 'T'), (2, ':'), (2, ':'), (2, '.'), (3, 'Z')]

theorem numbers_fit (t : DateTime) :
    List.Forall₂ (fun part n => n < 10 ^ part.1) serverShape t.numbers := by
  obtain ⟨⟨-, hyear⟩, ⟨-, hmonth⟩, -, hday⟩ := t.date.isDate
  obtain ⟨hhour, hminute, hsecond, hmicro⟩ := t.isTime
  have hlong := daysInMonth_le t.date.year t.date.month
  unfold serverShape numbers
  refine .cons ?_ <| .cons ?_ <| .cons ?_ <| .cons ?_ <| .cons ?_ <| .cons ?_ <| .cons ?_ .nil
  all_goals
    dsimp only
    omega

theorem toList_forServer (h : 1000 ≤ t.date.year) :
    (t.shortMillis "T" ++ "Z").toList = Text.row serverShape t.numbers := by
  rw [String.toList_append, shortMillis_eq_isoMillis h, toList_isoMillis]
  simp [Date.chars, Date.charsBehindYear, clockChars, millisWritten, Text.padded, serverShape,
    numbers, Text.row, String.toList_append]

/-- The forms of times with years of four digits are in the order of the times. -/
theorem forServer_le_iff (hs : 1000 ≤ s.date.year) (ht : 1000 ≤ t.date.year) :
    s.shortMillis "T" ++ "Z" ≤ t.shortMillis "T" ++ "Z" ↔ s.inMillis ≤ t.inMillis := by
  rw [← not_lt, String.lt_iff_toList_lt, toList_forServer ht, toList_forServer hs,
    Text.row_lt_row_iff t.numbers_fit s.numbers_fit, numbers_lt_iff, le_iff, toMicros_inMillis,
    toMicros_inMillis]
  omega

theorem inMillis_le_inMillis (h : s ≤ t) : s.inMillis ≤ t.inMillis := by
  rw [le_iff] at h ⊢
  rw [toMicros_inMillis, toMicros_inMillis]
  omega

end DateTime

namespace ZonedTime

variable {d : ZonedTime} {u : DateTime} {text : String}

/-- A clock in UTC shows the time with the same count. A time without an offset has one in UTC
from the second day on. -/
theorem utc_eq_ok_iff : d.utc = .ok u
    ↔ (u.toMicros : Int) = d.utcMicros ∧ (d.offset = none → d.wall.date.dayNumber ≠ 1) := by
  obtain ⟨wall, offset⟩ := d
  cases offset with
  | none =>
    have hcount : (u.toMicros : Int) = wall.toMicros - 0 ↔ wall = u := by
      constructor
      · intro h
        exact DateTime.eq_of_toMicros_eq (by omega)
      · rintro rfl
        omega
    simp only [utc, utcMicros, Option.getD_none, hcount, forall_const]
    split
    · rename_i hfirst
      simp [hfirst]
    · rename_i hlater
      simp [hlater]
  | some offset =>
    have hshift : wall.shift? (-offset) = some u ↔ (u.toMicros : Int) = wall.toMicros + -offset :=
      DateTime.shift?_eq_some_iff
    simp only [utc, utcMicros, Option.getD_some, reduceCtorEq, false_implies, and_true]
    rw [Int.sub_eq_add_neg, ← hshift]
    cases wall.shift? (-offset) <;> simp

theorem forServer_eq_ok_iff :
    d.forServer = .ok text ↔ ∃ u, d.utc = .ok u ∧ text = u.shortMillis "T" ++ "Z" := by
  rw [forServer]
  cases d.utc with
  | error e => simp [bind, Except.bind]
  | ok u => simp [bind, Except.bind, pure, Except.pure, eq_comm]

theorem readBound_forServer_iff (u : DateTime) :
    readBound (some (u.shortMillis "T" ++ "Z")) = .ok (some u.inMillis) ↔ 1000 ≤ u.date.year := by
  constructor
  · intro h
    refine Nat.le_of_not_lt fun hshort => ?_
    rw [readBound_forServer_of_short hshort] at h
    cases h
  · exact readBound_forServer

/-- **The form for log servers** exists if a clock in UTC shows a time of the calendar, other than
one on the first day for a time without an offset. It is read back as the time in UTC, cut to
milliseconds, exactly if the year of that time has four digits, and not at all otherwise. It is
the year in UTC that counts for this, and for the order too: among times with such years the
forms are in the order of the milliseconds, and so never in another order than the times. -/
theorem forServer_readBack (d : ZonedTime) :
    ((∃ text, d.forServer = .ok text)
      ↔ (∃ u : DateTime, (u.toMicros : Int) = d.utcMicros)
        ∧ (d.offset = none → d.wall.date.dayNumber ≠ 1))
    ∧ ∀ text, d.forServer = .ok text → ∃ u : DateTime, (u.toMicros : Int) = d.utcMicros
      ∧ (readBound (some text) = .ok (some u.inMillis) ↔ 1000 ≤ u.date.year)
      ∧ (u.date.year < 1000 → ∃ e, readBound (some text) = .error e)
      ∧ ∀ (e : ZonedTime) (v : DateTime) (other : String), e.forServer = .ok other →
        (v.toMicros : Int) = e.utcMicros → 1000 ≤ u.date.year → 1000 ≤ v.date.year →
        (text ≤ other ↔ u.inMillis ≤ v.inMillis) ∧ (d.utcMicros ≤ e.utcMicros → text ≤ other) := by
  constructor
  · simp only [forServer_eq_ok_iff, utc_eq_ok_iff]
    constructor
    · rintro ⟨text, u, ⟨hcount, hday⟩, -⟩
      exact ⟨⟨u, hcount⟩, hday⟩
    · rintro ⟨⟨u, hcount⟩, hday⟩
      exact ⟨_, u, ⟨hcount, hday⟩, rfl⟩
  · intro text htext
    obtain ⟨u, hu, rfl⟩ := forServer_eq_ok_iff.mp htext
    have hcount := (utc_eq_ok_iff.mp hu).1
    refine ⟨u, hcount, readBound_forServer_iff u,
      fun hshort => ⟨_, readBound_forServer_of_short hshort⟩, ?_⟩
    intro e v other hother hv hyear hyear'
    obtain ⟨v', hv', rfl⟩ := forServer_eq_ok_iff.mp hother
    -- the time in UTC is told by its count
    obtain rfl : v = v' := DateTime.eq_of_toMicros_eq (by
      have hcount' := (utc_eq_ok_iff.mp hv').1
      omega)
    have horder := DateTime.forServer_le_iff hyear hyear'
    refine ⟨horder, fun hle => horder.mpr (DateTime.inMillis_le_inMillis ?_)⟩
    rw [DateTime.le_iff]
    omega

/-- New Year in a zone that is two hours ahead is the last day of the year before in UTC. -/
theorem forServer_readBack_newYear :
    let d : ZonedTime := ⟨⟨⟨2024, 1, 1, by decide⟩, 0, 30, 0, 678900, by decide⟩, some 7200000000⟩
    let e : ZonedTime := ⟨⟨⟨2023, 12, 31, by decide⟩, 22, 30, 0, 679000, by decide⟩, none⟩
    let u : DateTime := ⟨⟨2023, 12, 31, by decide⟩, 22, 30, 0, 678900, by decide⟩
    ∃ text other, d.forServer = .ok text ∧ e.forServer = .ok other
      ∧ readBound (some text) = .ok (some u.inMillis) ∧ text ≤ other := by
  intro d e u
  have htext : d.forServer = .ok "2023-12-31T22:30:00.678Z" := by cbv
  have hother : e.forServer = .ok "2023-12-31T22:30:00.679Z" := by cbv
  obtain ⟨u', hcount, hread, -, horder⟩ := (forServer_readBack d).2 _ htext
  obtain rfl : u' = u := DateTime.eq_of_toMicros_eq (by
    have hu : (u.toMicros : Int) = d.utcMicros := by decide
    omega)
  refine ⟨_, _, htext, hother, hread.mpr (by decide), ?_⟩
  exact (horder e e.wall _ hother (by decide) (by decide) (by decide)).2 (by decide)

end ZonedTime

end LogSearch.Calendar
