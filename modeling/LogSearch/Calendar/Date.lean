/-
Dates of the Gregorian calendar, years 1 to 9999.

A `Date` is a date that exists: the proof that its day falls into its month is
part of it, so nothing further down has to ask again. Dates are counted from 1
January of year 1, which is day 1. The count of a date is a sum; the date of a
count is found by stepping, first through the years from a guess that is never
too late, then through the months. Stepping needs no case for leap years, since
it only compares counts.
-/

set_option autoImplicit false

namespace LogSearch.Calendar

/-- Whether the year has a 29 February. -/
def isLeapYear (year : Nat) : Bool :=
  year % 4 = 0 && (year % 100 ≠ 0 || year % 400 = 0)

/-- The number of days of a month. -/
def daysInMonth (year month : Nat) : Nat :=
  if month = 2 then (if isLeapYear year then 29 else 28)
  else if month = 4 ∨ month = 6 ∨ month = 9 ∨ month = 11 then 30
  else 31

/-- Whether the three numbers name a day of the calendar. -/
def IsDate (year month day : Nat) : Prop :=
  (1 ≤ year ∧ year ≤ 9999) ∧ (1 ≤ month ∧ month ≤ 12) ∧ 1 ≤ day ∧ day ≤ daysInMonth year month

instance (year month day : Nat) : Decidable (IsDate year month day) := by
  unfold IsDate; infer_instance

/-- A day of the calendar. -/
@[ext] structure Date where
  /-- The year, from 1 to 9999. -/
  year : Nat
  /-- The month, from 1 to 12. -/
  month : Nat
  /-- The day of the month, from 1 on. -/
  day : Nat
  /-- The day exists. -/
  isDate : IsDate year month day
deriving DecidableEq, Repr

/-! ## Counting days -/

/-- The number of days before 1 January of a year. -/
def daysBeforeYear (year : Nat) : Nat :=
  (year - 1) * 365 + (year - 1) / 4 - (year - 1) / 100 + (year - 1) / 400

/-- The number of days of a year before one of its months. -/
def daysBeforeMonth (year : Nat) : Nat → Nat
  | 0 => 0
  | 1 => 0
  | month + 2 => daysBeforeMonth year (month + 1) + daysInMonth year (month + 1)

/-- The count of a date, where 1 January of year 1 has the count 1. -/
def Date.dayNumber (d : Date) : Nat :=
  daysBeforeYear d.year + daysBeforeMonth d.year d.month + d.day

/-- The last year from `year` on that begins before day `n`, at most `steps` years later. -/
def lastYearBefore (n : Nat) : Nat → Nat → Nat
  | 0, year => year
  | steps + 1, year =>
    if daysBeforeYear (year + 1) < n then lastYearBefore n steps (year + 1) else year

/-- The last month from `month` on of which day `n` of the year lies not in front, at most `steps`
months later. -/
def lastMonthBefore (year n : Nat) : Nat → Nat → Nat
  | 0, month => month
  | steps + 1, month =>
    if daysBeforeMonth year (month + 1) < n then lastMonthBefore year n steps (month + 1)
    else month

/-- The date with a given count, unless that lies outside the calendar. No year has more than 366
days, so the guess for the year is never too late, and over all years it falls behind by less
than 28. -/
def Date.ofDayNumber? (n : Nat) : Option Date :=
  let year := lastYearBefore n 28 ((n - 1) / 366 + 1)
  let dayOfYear := n - daysBeforeYear year
  let month := lastMonthBefore year dayOfYear 11 1
  let day := dayOfYear - daysBeforeMonth year month
  if h : IsDate year month day then some ⟨year, month, day, h⟩ else none

/-! ## Weeks -/

/-- The day of the week of a count, Monday being 0. -/
def weekdayOfDayNumber (n : Nat) : Nat :=
  (n + 6) % 7

/-- The count of the Monday of week 1, the first week with at least four days in the year. -/
def mondayOfWeekOne (year : Nat) : Nat :=
  let first := daysBeforeYear year + 1
  let weekday := weekdayOfDayNumber first
  if weekday ≤ 3 then first - weekday else first - weekday + 7

/-- Whether a year has a week of this number. Most have 52; 53 are in the years that start on a
Thursday, and in the leap years that start on a Wednesday. -/
def hasWeek (year week : Nat) : Bool :=
  (1 ≤ week && week ≤ 52) ||
    (week = 53 &&
      let weekday := weekdayOfDayNumber (daysBeforeYear year + 1)
      weekday = 3 || (weekday = 2 && isLeapYear year))

end LogSearch.Calendar
