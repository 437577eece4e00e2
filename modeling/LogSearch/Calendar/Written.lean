/-
The written forms of a time.

Answers write times as ISO 8601 does, with the fraction only where it is not
zero, and with three digits of it for the time of a record. The export and the
requests to a log server leave out the zeros in front of a year; everything
else pads it to four digits.
-/
import LogSearch.Calendar.DateTime
import LogSearch.Text.Digit

set_option autoImplicit false

namespace LogSearch.Calendar

open Text (padded)

/-- A date with its year in four digits. -/
def Date.written (d : Date) : String :=
  padded 4 d.year ++ "-" ++ padded 2 d.month ++ "-" ++ padded 2 d.day

/-- A date with no zeros in front of its year. -/
def Date.writtenShort (d : Date) : String :=
  toString d.year ++ "-" ++ padded 2 d.month ++ "-" ++ padded 2 d.day

namespace DateTime

/-- The time of day to the second. -/
def clockWritten (t : DateTime) : String :=
  padded 2 t.hour ++ ":" ++ padded 2 t.minute ++ ":" ++ padded 2 t.second

/-- The fraction of the second in three digits, the rest cut off. -/
def millisWritten (t : DateTime) : String :=
  "." ++ padded 3 (t.micro / 1000)

/-- The fraction of the second in six digits, or nothing where it is zero. -/
def fractionWritten (t : DateTime) : String :=
  if t.micro = 0 then "" else "." ++ padded 6 t.micro

/-- The time with a given character between date and clock. -/
def written (separator : String) (t : DateTime) : String :=
  t.date.written ++ separator ++ t.clockWritten ++ t.fractionWritten

/-- The time in ISO 8601. -/
def iso (t : DateTime) : String :=
  t.written "T"

/-- The time in ISO 8601 with three digits of the fraction. -/
def isoMillis (t : DateTime) : String :=
  t.date.written ++ "T" ++ t.clockWritten ++ t.millisWritten

/-- The time with a short year, three digits of the fraction and a given separator. -/
def shortMillis (separator : String) (t : DateTime) : String :=
  t.date.writtenShort ++ separator ++ t.clockWritten ++ t.millisWritten

end DateTime

end LogSearch.Calendar
