/-
Numbers in the binary format of 64 bits.

A finite number is a mantissa below 2^53 times a power of two, and the exponent
is as small as the mantissa and the format allow. That makes the form unique up
to the sign of zero. Rounding goes to the nearest such number, and to the one
with the even mantissa if two are equally near.
-/

set_option autoImplicit false

namespace LogSearch.Decimal

/-- A number of the format. -/
inductive Binary64 where
  /-- Not a number. -/
  | nan
  /-- Beyond all finite numbers. -/
  | infinite (isNegative : Bool)
  /-- The number `mantissa * 2 ^ exponent`, or its negative. -/
  | finite (isNegative : Bool) (mantissa : Nat) (exponent : Int)
deriving DecidableEq, Repr, Inhabited

namespace Binary64

/-- The least exponent. -/
def minExponent : Int := -1074

/-- The greatest exponent. -/
def maxExponent : Int := 971

/-- A power as a fraction: `base ^ n` or `1 / base ^ (-n)`, as numerator and denominator. -/
def powerFraction (base : Nat) (n : Int) : Nat × Nat :=
  (Nat.pow base n.toNat, Nat.pow base (-n).toNat)

/-- The natural number nearest to a fraction, the even one of two. -/
def roundDiv (num den : Nat) : Nat :=
  let q := num / den
  let r := num % den
  if den < 2 * r ∨ (den = 2 * r ∧ q % 2 = 1) then q + 1 else q

/-- The number with the mantissa nearest to `num / den * 2 ^ -exponent`. -/
def ofScaled (isNegative : Bool) (num den : Nat) (exponent : Int) : Binary64 :=
  let (up, down) := powerFraction 2 (-exponent)
  let mantissa := roundDiv (num * up) (den * down)
  let (mantissa, exponent) :=
    if mantissa = Nat.pow 2 53 then (Nat.pow 2 52, exponent + 1) else (mantissa, exponent)
  if maxExponent < exponent then .infinite isNegative else .finite isNegative mantissa exponent

/-- The number nearest to a fraction. -/
def ofFraction (isNegative : Bool) (num den : Nat) : Binary64 :=
  if num = 0 then .finite isNegative 0 minExponent
  else
    let guess := max ((num.log2 : Int) - den.log2 - 53) minExponent
    let (up, down) := powerFraction 2 (-guess)
    let isLong := Nat.pow 2 53 ≤ num * up / (den * down)
    ofScaled isNegative num den (if isLong then guess + 1 else guess)

/-- The number nearest to `digits * 10 ^ exponent`. Where the power alone decides, it is not worked
out. -/
def ofDecimal (isNegative : Bool) (digits : Nat) (exponent : Int) : Binary64 :=
  let size : Int := (Nat.toDigits 10 digits).length + exponent
  if digits = 0 ∨ size < -400 then .finite isNegative 0 minExponent
  else if 400 < size then .infinite isNegative
  else
    let (up, down) := powerFraction 10 exponent
    ofFraction isNegative (digits * up) down

/-- The whole part of a finite number. -/
def truncate? : Binary64 → Option Int
  | finite isNegative mantissa exponent =>
    let (up, down) := powerFraction 2 exponent
    let n : Int := (mantissa * up / down : Nat)
    some (if isNegative then -n else n)
  | _ => none

end Binary64

end LogSearch.Decimal
