/-
The three shapes of a timestamp in a log line.

    strict   YYYY-MM-DD hh:mm:ss.fff        only at the start of a line
    loose    YYYY-MM-DD hh:mm:ss[.f]        anywhere; '/' may stand for '-'
    glog     [IWEF]MMDD hh:mm:ss.fff        only at the start; no year

Any white space may stand between date and clock, in any amount, and the digits
may be those of any script. A fraction has as many digits as it likes, of which
three count; the strict and the glog shape ask for at least three.

A line that starts with one of the shapes starts a record, whether or not the
numbers make up a time. The strict shape is a case of the loose one here, so
two shapes decide this.
-/
import LogSearch.Text.Blank
import LogSearch.Text.Digit

set_option autoImplicit false

namespace LogSearch.Timestamp

/-- The numbers of a clock. -/
structure Clock where
  /-- The hour. -/
  hour : Nat
  /-- The minute. -/
  minute : Nat
  /-- The second. -/
  second : Nat
  /-- The milliseconds. -/
  millis : Nat
deriving DecidableEq, Repr

/-- The numbers of a timestamp as they are written. The year is missing in the glog shape. -/
structure Fields where
  /-- The year, if one is written. -/
  year : Option Nat
  /-- The month. -/
  month : Nat
  /-- The day. -/
  day : Nat
  /-- The clock. -/
  clock : Clock
deriving DecidableEq, Repr

/-! ## Pieces -/

/-- Reads exactly `n` digits. -/
def takeDigits (n : Nat) (cs : List Char) : Option (Nat × List Char) :=
  let digits := cs.take n
  if digits.length = n ∧ digits.all Text.isDigit then some (Text.digitsToNat digits, cs.drop n)
  else none

/-- Reads a character of some class. -/
def takeChar (p : Char → Bool) : List Char → Option (List Char)
  | [] => none
  | c :: cs => if p c then some cs else none

/-- Reads white space, at least one character of it. -/
def takeBlanks (cs : List Char) : Option (List Char) :=
  match cs with
  | [] => none
  | c :: cs => if Text.isBlank c then some (cs.dropWhile Text.isBlank) else none

/-- The milliseconds of a fraction: its first three digits, filled up with zeros. -/
def millisOf (digits : List Char) : Nat :=
  let first := digits.take 3
  Text.digitsToNat first * Nat.pow 10 (3 - first.length)

/-- Reads `hh:mm:ss`; the milliseconds are still zero. -/
def takeClock (cs : List Char) : Option (Clock × List Char) := do
  let (hour, cs) ← takeDigits 2 cs
  let cs ← takeChar (· = ':') cs
  let (minute, cs) ← takeDigits 2 cs
  let cs ← takeChar (· = ':') cs
  let (second, cs) ← takeDigits 2 cs
  return (⟨hour, minute, second, 0⟩, cs)

/-- The digits of a fraction, behind its point; none where no fraction starts. -/
def fractionDigits : List Char → List Char
  | '.' :: cs => cs.takeWhile Text.isDigit
  | _ => []

/-- Whether the character can stand between the numbers of a loose date. -/
def isDateSeparator (c : Char) : Bool :=
  c = '/' || c = '-'

/-- Reads a date, white space and a clock, where `separator` stands between the numbers of the
date. The characters behind the clock are returned too. -/
def takeDateAndClock (separator : Char → Bool) (cs : List Char) : Option (Fields × List Char) := do
  let (year, cs) ← takeDigits 4 cs
  let cs ← takeChar separator cs
  let (month, cs) ← takeDigits 2 cs
  let cs ← takeChar separator cs
  let (day, cs) ← takeDigits 2 cs
  let (clock, cs) ← takeClock (← takeBlanks cs)
  return (⟨some year, month, day, clock⟩, cs)

/-- Puts a fraction into a timestamp. -/
def Fields.withFraction (f : Fields) (digits : List Char) : Fields :=
  { f with clock := { f.clock with millis := millisOf digits } }

/-! ## Shapes -/

/-- Reads the strict shape at the start. -/
def strict? (cs : List Char) : Option Fields := do
  let (fields, rest) ← takeDateAndClock (· = '-') cs
  let fraction := fractionDigits rest
  if 3 ≤ fraction.length then return fields.withFraction fraction else none

/-- Reads the loose shape at the start. -/
def loose? (cs : List Char) : Option Fields := do
  let (fields, rest) ← takeDateAndClock isDateSeparator cs
  return fields.withFraction (fractionDigits rest)

/-- Reads the loose shape where it first occurs. -/
def findLoose? (cs : List Char) : Option Fields :=
  match loose? cs with
  | some fields => some fields
  | none =>
    match cs with
    | [] => none
    | _ :: cs => findLoose? cs

/-- Reads the glog shape at the start. -/
def glog? (cs : List Char) : Option Fields := do
  let cs ← takeChar (fun c => c = 'I' || c = 'W' || c = 'E' || c = 'F') cs
  let (month, cs) ← takeDigits 2 cs
  let (day, cs) ← takeDigits 2 cs
  let (clock, rest) ← takeClock (← takeBlanks cs)
  let fraction := fractionDigits rest
  if 3 ≤ fraction.length then
    return Fields.withFraction ⟨none, month, day, clock⟩ fraction
  else none

/-- Whether a line starts a record. -/
def startsRecord (line : String) : Bool :=
  (loose? line.toList).isSome || (glog? line.toList).isSome

end LogSearch.Timestamp
