/-
Bounds of a time window, as a caller gives them.

Log lines carry no zone, so a bound is compared with them as it is written: a
`Z` or an offset must be well-formed but is then dropped, and no clock is
converted. No text is no bound.
-/
import LogSearch.Calendar.IsoReader
import LogSearch.Text.Blank

set_option autoImplicit false

namespace LogSearch.Calendar

/-- Cuts one `Z` off the end. -/
def dropZulu (s : String) : String :=
  if s.toList.getLast? = some 'Z' then String.ofList s.toList.dropLast else s

/-- Reads an optional bound. -/
def readBound (value : Option String) : Except ReadError (Option DateTime) :=
  match value with
  | none => return none
  | some "" => return none
  | some text => do return some (← readIso (dropZulu (Text.trim text))).wall

end LogSearch.Calendar
