/-
Times as a log server wants them: in UTC, to the millisecond, with a `Z`.

A time without an offset is taken to be UTC already. Placing it there looks at
the day before, since an offset could have moved it; on the first day of the
calendar there is no such day.
-/
import LogSearch.Calendar.IsoReader
import LogSearch.Calendar.Written

set_option autoImplicit false

namespace LogSearch.Calendar

/-- Why a time has no form in UTC. -/
inductive UtcError where
  /-- A time without an offset lies on the first day of the calendar. -/
  | firstDay
  /-- The time lies outside the calendar once the offset is taken off. -/
  | outsideCalendar
deriving DecidableEq, Repr

/-- What is wrong. -/
def UtcError.message : UtcError → String
  | firstDay => "year 0 is out of range"
  | outsideCalendar => "date value out of range"

namespace ZonedTime

/-- The time that a clock in UTC shows. -/
def utc (t : ZonedTime) : Except UtcError DateTime :=
  match t.offset with
  | none => if t.wall.date.dayNumber = 1 then .error .firstDay else .ok t.wall
  | some offset =>
    match t.wall.shift? (-offset) with
    | some utc => .ok utc
    | none => .error .outsideCalendar

/-- The microseconds since the beginning of the calendar in UTC, by which times are compared. -/
def utcMicros (t : ZonedTime) : Int :=
  t.wall.toMicros - t.offset.getD 0

/-- The time as a log server reads it. -/
def forServer (t : ZonedTime) : Except UtcError String := do
  return (← t.utc).shortMillis "T" ++ "Z"

end ZonedTime

end LogSearch.Calendar
