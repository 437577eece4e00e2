/-
How a number of seconds is written.

The shortest decimal is written out in full from 10^-4 up to below 10^16, and
with an exponent otherwise. In full there is always a digit on both sides of the
point; with an exponent there is a point only if there are digits behind it.
-/
import LogSearch.Decimal.Shortest

set_option autoImplicit false

namespace LogSearch.Decimal

/-- Zeros. -/
def zeros (n : Nat) : List Char := List.replicate n '0'

/-- Writes out digits of which `point` stand in front of the decimal point. -/
def inFull (digits : List Char) (point : Int) : List Char :=
  let front := digits.take point.toNat ++ zeros (point.toNat - digits.length)
  let back := zeros (-point).toNat ++ digits.drop point.toNat
  (if front.isEmpty then ['0'] else front) ++ '.' :: (if back.isEmpty then ['0'] else back)

/-- Writes digits with an exponent of at least two digits. -/
def withExponent (digits : List Char) (point : Int) : List Char :=
  let exponent := point - 1
  let shown := Nat.toDigits 10 exponent.natAbs
  digits.take 1 ++ (if digits.length ≤ 1 then [] else '.' :: digits.drop 1) ++
    ['e', if exponent < 0 then '-' else '+'] ++ zeros (2 - shown.length) ++ shown

/-- The text of a positive number. -/
def positiveText (mantissa : Nat) (exponent : Int) : List Char :=
  let (digits, exponent) := shortest mantissa exponent
  let written := Nat.toDigits 10 digits
  let point := written.length + exponent
  let kept := (written.reverse.dropWhile (· = '0')).reverse
  if -4 < point ∧ point ≤ 16 then inFull kept point else withExponent kept point

/-- The text of a number. -/
def Binary64.text : Binary64 → String
  | .nan => "nan"
  | .infinite isNegative => if isNegative then "-inf" else "inf"
  | .finite isNegative mantissa exponent =>
    let text := if mantissa = 0 then "0.0" else String.ofList (positiveText mantissa exponent)
    if isNegative then "-" ++ text else text

end LogSearch.Decimal
