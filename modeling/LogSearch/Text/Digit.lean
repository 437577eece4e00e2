/-
Decimal digits.

Each script that writes numbers in base ten has its ten digits in a row, from
zero to nine, so the class is the list of its zeros. Sixty-six such rows exist.
Dates in log lines, year guesses from file names and numeric settings read all
of them; date bounds read the ASCII row only.
-/

set_option autoImplicit false

namespace LogSearch.Text

/-- The zeros of the decimal digit rows beyond ASCII, by code point. -/
def digitZeros : List Nat :=
  [0x660, 0x6F0, 0x7C0, 0x966, 0x9E6, 0xA66, 0xAE6, 0xB66, 0xBE6, 0xC66, 0xCE6, 0xD66, 0xDE6,
   0xE50, 0xED0, 0xF20, 0x1040, 0x1090, 0x17E0, 0x1810, 0x1946, 0x19D0, 0x1A80, 0x1A90, 0x1B50,
   0x1BB0, 0x1C40, 0x1C50, 0xA620, 0xA8D0, 0xA900, 0xA9D0, 0xA9F0, 0xAA50, 0xABF0, 0xFF10,
   0x104A0, 0x10D30, 0x11066, 0x110F0, 0x11136, 0x111D0, 0x112F0, 0x11450, 0x114D0, 0x11650,
   0x116C0, 0x11730, 0x118E0, 0x11950, 0x11C50, 0x11D50, 0x11DA0, 0x16A60, 0x16AC0, 0x16B50,
   0x1D7CE, 0x1D7D8, 0x1D7E2, 0x1D7EC, 0x1D7F6, 0x1E140, 0x1E2F0, 0x1E950, 0x1FBF0]

/-- The value of an ASCII digit. -/
def asciiDigit? (c : Char) : Option Nat :=
  if '0' ≤ c ∧ c ≤ '9' then some (c.toNat - 0x30) else none

/-- The value of a decimal digit beyond ASCII: its distance from the zero of its row. -/
def otherDigit? (c : Char) : Option Nat :=
  (digitZeros.find? fun z => z ≤ c.toNat && c.toNat < z + 10).map (c.toNat - ·)

/-- The value of a decimal digit of any script. -/
def digitValue? (c : Char) : Option Nat :=
  (asciiDigit? c).or (otherDigit? c)

/-- Whether the character is a decimal digit of some script. -/
def isDigit (c : Char) : Bool :=
  (digitValue? c).isSome

/-- The number that a run of digits writes; characters that are no digits count as zero. -/
def digitsToNat (cs : List Char) : Nat :=
  cs.foldl (fun n c => 10 * n + (digitValue? c).getD 0) 0

/-- The last `width` decimal digits of a number, zeros in front included. -/
def paddedDigits : Nat → Nat → List Char
  | 0, _ => []
  | width + 1, n => paddedDigits width (n / 10) ++ [Char.ofNat (0x30 + n % 10)]

/-- A number of at most `width` digits, filled up with zeros in front. -/
def padded (width n : Nat) : String :=
  String.ofList (paddedDigits width n)

/-- Every character that core counts as a digit is one here. -/
theorem isDigit_of_isDigit {c : Char} (h : c.isDigit = true) : isDigit c = true := by
  have h' : '0' ≤ c ∧ c ≤ '9' := by
    simpa [Char.isDigit, Char.le_def] using h
  simp only [isDigit, digitValue?, asciiDigit?, if_pos h', Option.some_or, Option.isSome_some]

end LogSearch.Text
