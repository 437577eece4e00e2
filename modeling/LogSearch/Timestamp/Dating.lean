/-
The time of a log line.

The shapes are tried in a fixed order: strict at the start, loose where it
first occurs, glog at the start. A shape whose numbers are no time is passed
over, and only the first place of a loose one is looked at.
-/
import LogSearch.Calendar.DateTime
import LogSearch.Timestamp.Year

set_option autoImplicit false

namespace LogSearch.Timestamp

open Calendar (DateTime)

/-- The time of a line. -/
structure Stamp where
  /-- The time, in whole milliseconds. -/
  time : DateTime
  /-- Whether the year had to be filled in. -/
  isGuessed : Bool
deriving DecidableEq, Repr

/-- The time that a timestamp writes, where `year` stands in for a missing one. -/
def Fields.time? (f : Fields) (year : Int) : Option DateTime :=
  let year := match f.year with
    | some year => (year : Int)
    | none => year
  if year < 0 then none
  else
    (DateTime.ofFields year.toNat f.month f.day f.clock.hour f.clock.minute f.clock.second
      (f.clock.millis * 1000)).toOption

/-- The time of a line, where `year` stands in for a missing one. -/
def date? (year : Int) (line : String) : Option Stamp :=
  let cs := line.toList
  let written := ((strict? cs).bind (·.time? year)).or ((findLoose? cs).bind (·.time? year))
  match written with
  | some time => some ⟨time, false⟩
  | none => ((glog? cs).bind (·.time? year)).map fun time => ⟨time, true⟩

/-- The time of a line that starts a record. -/
def openingStamp? (year : Int) (line : String) : Option Stamp :=
  if startsRecord line then date? year line else none

end LogSearch.Timestamp
