/-
The parts of a JSON text that hold no others: strings and numbers.

A string may hold any character but quotes, backslashes and control characters,
and those by escapes. Escapes stand for units of UTF-16, so two of them may make
up one character; half of such a pair on its own is replaced by U+FFFD.

A number is whole unless it has a fraction or an exponent. The digits are those of
ASCII, and there are no needless zeros in front.
-/
import LogSearch.Decimal.Reading
import LogSearch.Json.Value

set_option autoImplicit false

namespace LogSearch.Json

/-- Why a text is not JSON. -/
inductive ReadError where
  /-- It does not follow the grammar. -/
  | malformed
  /-- It has a whole number that is too long to be meant. -/
  | numberTooLong
deriving DecidableEq, Repr

/-- Drops white space. -/
def dropBlanks (cs : List Char) : List Char :=
  cs.dropWhile fun c => c = ' ' || c = '\t' || c = '\n' || c = '\r'

theorem length_dropBlanks_le (cs : List Char) : (dropBlanks cs).length ≤ cs.length :=
  (List.dropWhile_suffix _).length_le

/-! ## Strings -/

/-- A part of a string. -/
inductive Piece where
  /-- A character. -/
  | char (c : Char)
  /-- A unit of UTF-16. -/
  | unit (n : Nat)
deriving DecidableEq, Repr

/-- The characters that have an escape of one letter. -/
def escapes : List (Char × Char) :=
  [('"', '"'), ('\\', '\\'), ('/', '/'), ('b', '\x08'), ('f', '\x0c'), ('n', '\n'), ('r', '\r'),
    ('t', '\t')]

/-- The value of a hexadecimal digit. -/
def hexValue? (c : Char) : Option Nat :=
  if '0' ≤ c ∧ c ≤ '9' then some (c.toNat - 0x30)
  else if 'a' ≤ c ∧ c ≤ 'f' then some (c.toNat - 0x57)
  else if 'A' ≤ c ∧ c ≤ 'F' then some (c.toNat - 0x37)
  else none

/-- The value of four hexadecimal digits. -/
def unit? (a b c d : Char) : Option Nat := do
  return (((← hexValue? a) * 16 + (← hexValue? b)) * 16 + (← hexValue? c)) * 16 + (← hexValue? d)

/-- Takes a part of a string off the front; the string does not end here. -/
def takePiece? : List Char → Option (Piece × List Char)
  | '\\' :: 'u' :: a :: b :: c :: d :: cs => (unit? a b c d).map fun n => (.unit n, cs)
  | '\\' :: c :: cs => (escapes.lookup c).map fun c => (.char c, cs)
  | c :: cs => if c = '\\' ∨ c.toNat < 0x20 then none else some (.char c, cs)
  | [] => none

theorem length_lt_of_takePiece? {cs rest : List Char} {piece : Piece}
    (h : takePiece? cs = some (piece, rest)) : rest.length < cs.length := by
  rw [takePiece?.eq_def] at h
  split at h
  · obtain ⟨_, _, h⟩ := Option.map_eq_some_iff.1 h
    cases h
    simp only [List.length_cons]
    omega
  · obtain ⟨_, _, h⟩ := Option.map_eq_some_iff.1 h
    cases h
    simp only [List.length_cons]
    omega
  · split at h
    · cases h
    · cases h
      exact Nat.lt_succ_self _
  · cases h

/-- Takes the parts of a string and the quote behind them off the front. The parts so far are
given with the latest first. -/
def takePieces? (reversed : List Piece) (cs : List Char) : Option (List Piece × List Char) :=
  match cs with
  | '"' :: cs => some (reversed.reverse, cs)
  | cs =>
    match _h : takePiece? cs with
    | none => none
    | some (piece, rest) => takePieces? (piece :: reversed) rest
termination_by cs.length
decreasing_by exact length_lt_of_takePiece? (by assumption)

theorem length_lt_of_takePieces? {reversed pieces : List Piece} {cs rest : List Char}
    (h : takePieces? reversed cs = some (pieces, rest)) : rest.length < cs.length := by
  fun_induction takePieces? reversed cs with
  | case1 reversed cs =>
    cases h
    exact Nat.lt_succ_self _
  | case2 => cases h
  | case3 reversed cs _ piece rest' hp ih =>
    exact Nat.lt_trans (ih h) (length_lt_of_takePiece? hp)

/-- The character of a unit that is not half of a pair. -/
def loneUnit (n : Nat) : Char :=
  if 0xD800 ≤ n ∧ n ≤ 0xDFFF then '\uFFFD' else Char.ofNat n

/-- The characters of a string. -/
def joinPieces : List Piece → List Char
  | [] => []
  | .char c :: pieces => c :: joinPieces pieces
  | .unit high :: .unit low :: pieces =>
    if 0xD800 ≤ high ∧ high < 0xDC00 ∧ 0xDC00 ≤ low ∧ low < 0xE000 then
      Char.ofNat (0x10000 + (high - 0xD800) * 0x400 + (low - 0xDC00)) :: joinPieces pieces
    else loneUnit high :: joinPieces (.unit low :: pieces)
  | .unit n :: pieces => loneUnit n :: joinPieces pieces

/-! ## Numbers -/

/-- Whether a character is a digit of ASCII. -/
def isDigit (c : Char) : Bool := '0' ≤ c && c ≤ '9'

/-- Takes the whole part of a number off the front. -/
def takeWhole? (cs : List Char) : Option (List Char × List Char) :=
  match cs with
  | '0' :: cs => some (['0'], cs)
  | cs =>
    let digits := cs.takeWhile isDigit
    if digits.isEmpty then none else some (digits, cs.dropWhile isDigit)

/-- Takes the digits of a fraction with the point off the front, if there is one. -/
def takeFraction (cs : List Char) : List Char × List Char :=
  match cs with
  | '.' :: rest =>
    let digits := rest.takeWhile isDigit
    if digits.isEmpty then ([], cs) else ('.' :: digits, rest.dropWhile isDigit)
  | cs => ([], cs)

/-- Takes an exponent off the front, if there is one. -/
def takeExponent (cs : List Char) : List Char × List Char :=
  match cs with
  | [] => ([], [])
  | e :: rest =>
    if e = 'e' ∨ e = 'E' then
      let sign := (rest.take 1).filter fun c => c = '+' || c = '-'
      let digits := (rest.drop sign.length).takeWhile isDigit
      if digits.isEmpty then ([], cs)
      else ('e' :: sign ++ digits, (rest.drop sign.length).dropWhile isDigit)
    else ([], cs)

/-- Takes a number without a sign off the front. -/
def takeNumber? (isNegative : Bool) (cs : List Char) :
    Option (Except ReadError Value × List Char) := do
  let sign := if isNegative then ['-'] else []
  let (whole, cs) ← takeWhole? cs
  let (fraction, cs) := takeFraction cs
  let (exponent, cs) := takeExponent cs
  let text := String.ofList (sign ++ whole ++ fraction ++ exponent)
  let value :=
    if fraction.isEmpty && exponent.isEmpty then
      match Decimal.readInt? text with
      | some n => .ok (.int n)
      | none => .error .numberTooLong
    else .ok (.float ((Decimal.readBinary64? text).getD .nan))
  return (value, cs)

theorem length_lt_of_takeWhole? {cs digits rest : List Char}
    (h : takeWhole? cs = some (digits, rest)) : rest.length < cs.length := by
  rw [takeWhole?.eq_def] at h
  split at h
  · cases h
    exact Nat.lt_succ_self _
  · dsimp only at h
    split at h
    · cases h
    · cases h
      rename_i hd
      have hl := congrArg List.length (List.takeWhile_append_dropWhile (p := isDigit) (l := cs))
      have := List.length_pos_iff.2 (mt List.isEmpty_iff.2 hd)
      simp only [List.length_append] at hl
      omega

theorem length_takeFraction_le (cs : List Char) : (takeFraction cs).2.length ≤ cs.length := by
  rw [takeFraction.eq_def]
  split
  · dsimp only
    split
    · exact Nat.le_refl _
    · exact Nat.le_succ_of_le (List.dropWhile_suffix _).length_le
  · exact Nat.le_refl _

theorem length_takeExponent_le (cs : List Char) : (takeExponent cs).2.length ≤ cs.length := by
  rw [takeExponent.eq_def]
  split
  · exact Nat.le_refl _
  · split
    · dsimp only
      split
      · exact Nat.le_refl _
      · exact Nat.le_succ_of_le
          (((List.dropWhile_suffix _).trans (List.drop_suffix _ _)).length_le)
    · exact Nat.le_refl _

theorem length_lt_of_takeNumber? {isNegative : Bool} {cs rest : List Char}
    {value : Except ReadError Value} (h : takeNumber? isNegative cs = some (value, rest)) :
    rest.length < cs.length := by
  obtain ⟨⟨whole, cs'⟩, hw, h⟩ := Option.bind_eq_some_iff.1 h
  cases h
  exact Nat.lt_of_le_of_lt
    (Nat.le_trans (length_takeExponent_le _) (length_takeFraction_le _))
    (length_lt_of_takeWhole? hw)

end LogSearch.Json
