/-
Integers as people write them.

Digits may be grouped by single underscores, and a sign may stand in front.
Nothing else is allowed inside; white space around a numeral is the business of
whoever reads it.
-/
import LogSearch.Text.Digit

set_option autoImplicit false

namespace LogSearch.Text

/-- Goes on with a numeral whose value so far is `n`. An underscore has to have a digit on either
side, so after one, and at the start, a digit is due. -/
def groupedDigitsFrom (value? : Char → Option Nat) (base n : Nat) (isDue : Bool) :
    List Char → Option Nat
  | [] => if isDue then none else some n
  | c :: cs =>
    if c = '_' then if isDue then none else groupedDigitsFrom value? base n true cs
    else
      match value? c with
      | none => none
      | some d => groupedDigitsFrom value? base (base * n + d) false cs

/-- Reads a numeral without a sign from all of the characters. -/
def groupedDigits? (value? : Char → Option Nat) (base : Nat) (cs : List Char) : Option Nat :=
  groupedDigitsFrom value? base 0 true cs

/-- Reads an optional sign, and what follows it with the given reader. -/
def signed? (read : List Char → Option Nat) : List Char → Option Int
  | '-' :: cs => (read cs).map fun n => -(n : Int)
  | '+' :: cs => (read cs).map fun n => (n : Int)
  | cs => (read cs).map fun n => (n : Int)

/-- The value of an octal digit. -/
def octalDigit? (c : Char) : Option Nat :=
  if '0' ≤ c ∧ c ≤ '7' then some (c.toNat - 0x30) else none

/-- Reads an octal numeral, which may start with `0o` and an underscore behind that. -/
def octal? (cs : List Char) : Option Nat :=
  groupedDigits? octalDigit? 8 <|
    match cs with
    | '0' :: 'o' :: '_' :: cs => cs
    | '0' :: 'O' :: '_' :: cs => cs
    | '0' :: 'o' :: cs => cs
    | '0' :: 'O' :: cs => cs
    | cs => cs

end LogSearch.Text
