/-
The year of timestamps that are written without one.

A caller may name it. Otherwise a date in the file's name gives it, and failing
that the current year is assumed, which is a guess that is reported. In a name
only years from 2000 to 2099 are looked for, since other runs of digits are as
likely something else.
-/
import LogSearch.Timestamp.Shape

set_option autoImplicit false

namespace LogSearch

/-- Where the year of a time came from, the surest source first. -/
inductive YearSource where
  /-- The time was written with its year. -/
  | none
  /-- The caller named the year. -/
  | explicit
  /-- The name of the file gave the year. -/
  | filename
  /-- The year is the current one. -/
  | clock
deriving DecidableEq, Repr

namespace YearSource

/-- The word for a source in answers. -/
def name : YearSource → String
  | none => "none"
  | explicit => "explicit"
  | filename => "filename"
  | clock => "clock"

/-- How weak a source is, the surest being 0. -/
def weakness : YearSource → Nat
  | none => 0
  | explicit => 1
  | filename => 2
  | clock => 3

/-- The weaker of two sources. -/
def weaker (a b : YearSource) : YearSource :=
  if a.weakness < b.weakness then b else a

end YearSource

namespace Timestamp

/-- The year of a date at the start of a file name, where `between` stands between its numbers. -/
def yearAt? (between : List Char → Option (List Char)) (cs : List Char) : Option Nat := do
  let (year, rest) ← takeDigits 4 cs
  if cs.take 2 ≠ ['2', '0'] then none
  let (_, rest) ← takeDigits 2 (← between rest)
  let _ ← takeDigits 2 (← between rest)
  return year

/-- The first year that some reader finds, at whatever place of the name. -/
def firstYear? (reader : List Char → Option Nat) (cs : List Char) : Option Nat :=
  match reader cs with
  | some year => some year
  | none =>
    match cs with
    | [] => none
    | _ :: cs => firstYear? reader cs

/-- The year of a date in a file name: one written without separators before one with them. -/
def yearOfName? (name : String) : Option Nat :=
  (firstYear? (yearAt? some) name.toList).or
    (firstYear? (yearAt? (takeChar isDateSeparator)) name.toList)

/-- A year together with its source. -/
structure FallbackYear where
  /-- The year, which need not be one of the calendar if a caller named it. -/
  year : Int
  /-- Where it came from. -/
  source : YearSource
deriving DecidableEq, Repr

/-- The year for timestamps without one. -/
def fallbackYear (currentYear : Nat) (fileName : Option String) (named : Option Int) :
    FallbackYear :=
  match named with
  | some year => ⟨year, .explicit⟩
  | none =>
    match fileName.bind yearOfName? with
    | some year => ⟨year, .filename⟩
    | none => ⟨currentYear, .clock⟩

/-- What is reported the first time that the current year is put into a timestamp. -/
def clockWarning (fileName : Option String) (year : Int) : String :=
  let name := match fileName with
    | none => "unnamed source"
    | some "" => "unnamed source"
    | some name => name
  s!"No year available for timestamps in {name}; assuming current year {year}"

end Timestamp

end LogSearch
