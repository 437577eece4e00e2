/-
Numbers as people write them in settings.

White space around a number is passed over, and its digits may be of any script
and may be grouped by single underscores. A whole number that is too long to be
meant is refused. A number with a fraction may leave out the digits on one side
of the point, may have an exponent, and may be infinite or no number at all.
-/
import LogSearch.Decimal.Binary64
import LogSearch.Text.Blank
import LogSearch.Text.Lowercase
import LogSearch.Text.Numeral

set_option autoImplicit false

namespace LogSearch.Decimal

/-- White space around a number. The information separators do not count. -/
def isBlank (c : Char) : Bool :=
  Text.isBlank c && !(0x1C ≤ c.toNat && c.toNat ≤ 0x1F)

/-- The longest whole number that is read. -/
def maxDigits : Nat := 4300

/-- Reads a whole number. -/
def readInt? (s : String) : Option Int :=
  let cs := Text.stripWhile isBlank s.toList
  if maxDigits < cs.countP Text.isDigit then none
  else Text.signed? (Text.groupedDigits? Text.digitValue? 10) cs

/-- The characters in front of the first one that passes a test, and the rest from there on. -/
def splitAtFirst (p : Char → Bool) (cs : List Char) : List Char × List Char :=
  (cs.takeWhile (!p ·), cs.dropWhile (!p ·))

/-- Reads digits that may be missing: their value and their number. -/
def readDigits? (cs : List Char) : Option (Nat × Nat) :=
  if cs.isEmpty then some (0, 0)
  else (Text.groupedDigits? Text.digitValue? 10 cs).map fun n => (n, cs.countP Text.isDigit)

/-- Reads a number without a sign, as digits and a power of ten. -/
def readPositive? (cs : List Char) : Option (Nat × Int) := do
  let (front, power) := splitAtFirst (fun c => c = 'e' || c = 'E') cs
  let exponent ← match power with
    | [] => some 0
    | _ :: power => Text.signed? (Text.groupedDigits? Text.digitValue? 10) power
  let (whole, point) := splitAtFirst (· = '.') front
  let (n, wholeCount) ← readDigits? whole
  let (m, count) ← readDigits? (point.drop 1)
  guard (0 < wholeCount + count)
  return (n * Nat.pow 10 count + m, exponent - count)

/-- Reads the words for numbers that are not finite. -/
def readWord? (isNegative : Bool) (cs : List Char) : Option Binary64 :=
  match String.ofList (cs.map Char.toLower) with
  | "inf" => some (.infinite isNegative)
  | "infinity" => some (.infinite isNegative)
  | "nan" => some .nan
  | _ => none

/-- Reads a number with a fraction. -/
def readBinary64? (s : String) : Option Binary64 :=
  let cs := Text.stripWhile isBlank s.toList
  let isNegative := cs.head? = some '-'
  let cs := if isNegative ∨ cs.head? = some '+' then cs.drop 1 else cs
  match readWord? isNegative cs with
  | some x => some x
  | none => (readPositive? cs).map fun (digits, exponent) => .ofDecimal isNegative digits exponent

end LogSearch.Decimal
