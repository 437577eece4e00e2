/-
The part of time that a search looks at.

Each end may be open, and an end that is given belongs to the window.
-/
import LogSearch.Calendar.DateTime

set_option autoImplicit false

namespace LogSearch.Search

open Calendar (DateTime)

/-- A window of time with optional ends. -/
structure Window where
  /-- The first time in the window. -/
  start : Option DateTime := none
  /-- The last time in the window. -/
  stop : Option DateTime := none
deriving DecidableEq, Repr

/-- Whether a time lies in the window. -/
def Window.contains (w : Window) (t : DateTime) : Bool :=
  w.start.all (· ≤ t) && w.stop.all (t ≤ ·)

end LogSearch.Search
