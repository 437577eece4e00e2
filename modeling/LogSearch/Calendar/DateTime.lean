/-
A date and a time of day, to the microsecond and without a zone.

Log lines carry no zone, so times are compared as they are written. The order
is that of the number of microseconds since the beginning of the calendar, and
arithmetic goes through that number as well.
-/
import LogSearch.Calendar.Date

set_option autoImplicit false

namespace LogSearch.Calendar

/-- A wall-clock time. -/
@[ext] structure DateTime where
  /-- The day. -/
  date : Date
  /-- The hour, below 24. -/
  hour : Nat
  /-- The minute, below 60. -/
  minute : Nat
  /-- The second, below 60. -/
  second : Nat
  /-- The microsecond, below a million. -/
  micro : Nat
  /-- The time of day exists. -/
  isTime : hour < 24 ∧ minute < 60 ∧ second < 60 ∧ micro < 1000000
deriving DecidableEq, Repr

/-- The first number of a date and time that is out of bounds. -/
inductive FieldError where
  /-- No such year. -/
  | year (year : Nat)
  /-- No such month. -/
  | month
  /-- No such day in the month. -/
  | day
  /-- No such hour. -/
  | hour
  /-- No such minute. -/
  | minute
  /-- No such second. -/
  | second
  /-- No such microsecond. -/
  | micro
deriving DecidableEq, Repr

/-- The bounds that a number has left. -/
def FieldError.message : FieldError → String
  | .year y => s!"year {y} is out of range"
  | month => "month must be in 1..12"
  | day => "day is out of range for month"
  | hour => "hour must be in 0..23"
  | minute => "minute must be in 0..59"
  | second => "second must be in 0..59"
  | micro => "microsecond must be in 0..999999"

namespace DateTime

/-- The time with the given numbers. They are checked from the year down. -/
def ofFields (year month day hour minute second micro : Nat) : Except FieldError DateTime :=
  if hd : IsDate year month day then
    if ht : hour < 24 ∧ minute < 60 ∧ second < 60 ∧ micro < 1000000 then
      .ok ⟨⟨year, month, day, hd⟩, hour, minute, second, micro, ht⟩
    else if 24 ≤ hour then .error .hour
    else if 60 ≤ minute then .error .minute
    else if 60 ≤ second then .error .second
    else .error .micro
  else if year < 1 ∨ 9999 < year then .error (.year year)
  else if month < 1 ∨ 12 < month then .error .month
  else .error .day

/-- The microseconds since midnight. -/
def microsOfDay (t : DateTime) : Nat :=
  ((t.hour * 60 + t.minute) * 60 + t.second) * 1000000 + t.micro

/-- The length of a day in microseconds. -/
def microsPerDay : Nat := 86400 * 1000000

/-- The microseconds since the midnight before day 1, which has the count of a whole day. -/
def toMicros (t : DateTime) : Nat :=
  t.date.dayNumber * microsPerDay + t.microsOfDay

/-- The time with a given number of microseconds, if the calendar has it. -/
def ofMicros? (n : Int) : Option DateTime :=
  if n < 0 then none
  else
    match Date.ofDayNumber? (n.toNat / microsPerDay) with
    | none => none
    | some date =>
      let rest := n.toNat % microsPerDay
      some {
        date
        hour := rest / 3600000000
        minute := rest / 60000000 % 60
        second := rest / 1000000 % 60
        micro := rest % 1000000
        isTime := by
          have : rest < microsPerDay := Nat.mod_lt _ (by decide)
          simp only [microsPerDay] at this
          omega }

/-- The time a number of microseconds later, or earlier if it is negative. -/
def shift? (t : DateTime) (micros : Int) : Option DateTime :=
  ofMicros? (t.toMicros + micros)

instance : LE DateTime where
  le s t := s.toMicros ≤ t.toMicros

instance : LT DateTime where
  lt s t := s.toMicros < t.toMicros

instance (s t : DateTime) : Decidable (s ≤ t) :=
  inferInstanceAs (Decidable (s.toMicros ≤ t.toMicros))

instance (s t : DateTime) : Decidable (s < t) :=
  inferInstanceAs (Decidable (s.toMicros < t.toMicros))

theorem le_iff {s t : DateTime} : s ≤ t ↔ s.toMicros ≤ t.toMicros := Iff.rfl

theorem lt_iff {s t : DateTime} : s < t ↔ s.toMicros < t.toMicros := Iff.rfl

end DateTime

end LogSearch.Calendar
