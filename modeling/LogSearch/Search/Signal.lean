/-
The signal to stop.

Workers look at the signal from time to time and stop once it is up. It goes up
when the sink wants no more, or when someone calls the search off. The latter may
happen at any moment, but all that a search can tell is at which of its looks the
signal was up first. So the moment is given by the number of that look.
-/

set_option autoImplicit false

namespace LogSearch.Search

/-- A signal to stop, which stays up once it is up. -/
structure Signal where
  /-- Whether it has been put up. -/
  isUp : Bool := false
  /-- The number of looks at it so far. -/
  looks : Nat := 0
  /-- The look, counted from one, at which it is found up for a reason outside the search. -/
  raisedAt : Option Nat := none
deriving DecidableEq, Repr

namespace Signal

/-- Puts the signal up. -/
def raise (s : Signal) : Signal :=
  { s with isUp := true }

/-- Looks at the signal: whether it is up, and the signal after the look. -/
def look (s : Signal) : Bool × Signal :=
  let looks := s.looks + 1
  let isUp := s.isUp || s.raisedAt.any (· ≤ looks)
  (isUp, { s with isUp, looks })

end Signal

end LogSearch.Search
