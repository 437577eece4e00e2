/-
What a run depends on besides its inputs.
-/

set_option autoImplicit false

namespace LogSearch

/-- The surroundings of a run. -/
structure Environment where
  /-- The current year, for timestamps without one. -/
  currentYear : Nat
  /-- The number of processors, if it is known. -/
  processors : Option Nat
  /-- Whether Zstandard files can be read. -/
  hasZstd : Bool := true
deriving DecidableEq, Repr

end LogSearch
