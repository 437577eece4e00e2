/-
Lower-casing, in full: a text becomes the sequence of the lower-case forms of
its characters, where U+0130 has a form of two characters and the capital sigma
one that depends on its surroundings. At the end of a word sigma is written ς,
elsewhere σ. That makes lower-casing a map on texts and not on characters: the
form of a part of a text need not be a part of the form of the text.
-/
import LogSearch.Text.CaseTable

set_option autoImplicit false

namespace LogSearch.Text

/-- Whether the character belongs to a script with case and has one. -/
def isCased (c : Char) : Bool :=
  ('a' ≤ c && c ≤ 'z') || ('A' ≤ c && c ≤ 'Z') || (0x80 ≤ c.toNat && inRanges casedRanges c.toNat)

/-- Whether the character is passed over when the surroundings of a sigma are looked at. -/
def isCaseIgnorable (c : Char) : Bool :=
  inRanges caseIgnorableRanges c.toNat

/-- The distance that some rows give for a code point. -/
def shiftIn (rows : List CaseRow) (n : Nat) : Int :=
  match rows.find? fun r => r.first ≤ n && n ≤ r.last && (n - r.first) % r.stride == 0 with
  | some r => r.shift
  | none => 0

/-- The lower-case form of one character, its surroundings left out of account. -/
def lowerChar (c : Char) : List Char :=
  if 'A' ≤ c ∧ c ≤ 'Z' then [Char.ofNat (c.toNat + 32)]
  else if c.toNat < 0x80 then [c]
  else if c.toNat = 0x130 then ['i', '\u0307']
  else [Char.ofNat (c.toNat + shiftIn lowerRows c.toNat).toNat]

/-- Whether a cased character comes next, ignorable ones passed over. -/
def startsCased (cs : List Char) : Bool :=
  match cs.find? fun c => !isCaseIgnorable c with
  | some c => isCased c
  | none => false

/-- Lower-cases what follows a part of the text that ended in a cased character, or did not. -/
def lowerAfter (afterCased : Bool) : List Char → List Char
  | [] => []
  | c :: cs =>
    let form :=
      if c = 'Σ' then [if afterCased && !startsCased cs then 'ς' else 'σ'] else lowerChar c
    form ++ lowerAfter (if isCaseIgnorable c then afterCased else isCased c) cs

/-- The lower-case form of the characters of a text. -/
def lowerChars (cs : List Char) : List Char :=
  lowerAfter false cs

/-- The lower-case form of a text. -/
def lower (s : String) : String :=
  String.ofList (lowerChars s.toList)

end LogSearch.Text
