/-
The shortest decimal that reads back as a given number.

All decimals in an interval around a number read back as it; the ends of the
interval lie half way to the next numbers and belong to it if the mantissa is
even. For one, two, three digits and so on, the two decimals next to the number
are tried. The first length with a decimal in the interval wins, and of two the
nearer one.

Seventeen digits always do.
-/
import LogSearch.Decimal.Binary64

set_option autoImplicit false

namespace LogSearch.Decimal

/-- An interval around a positive number, in units of `1 / den`. -/
structure Neighbourhood where
  /-- The number. -/
  value : Nat
  /-- Where the interval starts. -/
  low : Nat
  /-- Where it ends. -/
  high : Nat
  /-- The unit. -/
  den : Nat
  /-- Whether the ends belong to it. -/
  hasEnds : Bool

/-- The interval that is rounded to `mantissa * 2 ^ exponent`. The next lower number is only half as
far away if the mantissa is the least of its length. -/
def Neighbourhood.of (mantissa : Nat) (exponent : Int) : Neighbourhood :=
  let isLeast := mantissa = Nat.pow 2 52 ∧ Binary64.minExponent < exponent
  let (up, down) := Binary64.powerFraction 2 (exponent - 2)
  { value := 4 * mantissa * up
    low := (4 * mantissa - if isLeast then 1 else 2) * up
    high := (4 * mantissa + 2) * up
    den := down
    hasEnds := mantissa % 2 = 0 }

/-- Whether `digits * 10 ^ exponent` lies in the interval. -/
def Neighbourhood.contains (n : Neighbourhood) (digits : Nat) (exponent : Int) : Bool :=
  let (up, down) := Binary64.powerFraction 10 exponent
  let x := digits * up * n.den
  let low := n.low * down
  let high := n.high * down
  if n.hasEnds then low ≤ x && x ≤ high else low < x && x < high

/-- Whether the value lies nearer to the upper of two decimals next to each other; the even one
counts as nearer in the middle. -/
def Neighbourhood.isNearUpper (n : Neighbourhood) (digits : Nat) (exponent : Int) : Bool :=
  let (up, down) := Binary64.powerFraction 10 exponent
  let twice := 2 * n.value * down
  let middle := (2 * digits + 1) * up * n.den
  middle < twice || (middle = twice && digits % 2 = 1)

/-- The decimal with the given exponent that stands for the value, if there is one. -/
def Neighbourhood.decimal? (n : Neighbourhood) (exponent : Int) : Option Nat :=
  let (up, down) := Binary64.powerFraction 10 exponent
  let digits := n.value * down / (n.den * up)
  match n.contains digits exponent, n.contains (digits + 1) exponent with
  | true, true => some (if n.isNearUpper digits exponent then digits + 1 else digits)
  | true, false => some digits
  | false, true => some (digits + 1)
  | false, false => none

/-- Whether the value is less than a power of ten. -/
def Neighbourhood.isBelow (n : Neighbourhood) (exponent : Int) : Bool :=
  let (up, down) := Binary64.powerFraction 10 exponent
  n.value * down < up * n.den

/-- The number of digits in front of the decimal point, negative for zeros behind it. -/
def Neighbourhood.magnitude (n : Neighbourhood) : Int :=
  (((List.range 700).map fun (k : Nat) => (k : Int) - 340).find? n.isBelow).getD 0

/-- The shortest decimal for a positive number, as digits and exponent. -/
def shortest (mantissa : Nat) (exponent : Int) : Nat × Int :=
  let n := Neighbourhood.of mantissa exponent
  let point := n.magnitude
  ((List.range 17).findSome? fun (shorter : Nat) =>
    let exponent := point - (shorter + 1)
    (n.decimal? exponent).map fun digits => (digits, exponent)).getD (0, 0)

end LogSearch.Decimal
