/-
Bytes and the text they encode.

Log files are read as UTF-8, and a log is never refused for a few bad bytes:
each ill-formed stretch becomes one replacement character U+FFFD. A stretch is
a maximal subpart, that is, the longest start of some well-formed sequence, or
else a single byte. So a sequence cut short counts once, while a surrogate
written in three bytes counts three times, since its first two bytes begin no
sequence at all.
-/

set_option autoImplicit false

namespace LogSearch

/-- A file or a part of one. -/
abbrev Bytes := List UInt8

namespace Text

/-- The bytes of a text. -/
def encodeUtf8 (s : String) : Bytes :=
  s.toList.flatMap String.utf8EncodeChar

/-- What a first byte announces: the bits that it adds to the code point, the bounds of the byte
after it, and how many bytes follow. -/
structure LeadByte where
  /-- The bits of the first byte that belong to the code point. -/
  bits : Nat
  /-- The least second byte. -/
  low : UInt8
  /-- The greatest second byte. -/
  high : UInt8
  /-- The number of bytes that follow. -/
  following : Nat

/-- Reads a first byte. The bounds on the second byte keep out overlong forms, surrogates and code
points above U+10FFFF; for the later bytes they are always 80 and BF. -/
def leadByte? (b : UInt8) : Option LeadByte :=
  let n := b.toNat
  if n < 0x80 then some ⟨n, 0x80, 0xBF, 0⟩
  else if n < 0xC2 then none
  else if n < 0xE0 then some ⟨n - 0xC0, 0x80, 0xBF, 1⟩
  else if n = 0xE0 then some ⟨0, 0xA0, 0xBF, 2⟩
  else if n = 0xED then some ⟨0xD, 0x80, 0x9F, 2⟩
  else if n < 0xF0 then some ⟨n - 0xE0, 0x80, 0xBF, 2⟩
  else if n = 0xF0 then some ⟨0, 0x90, 0xBF, 3⟩
  else if n < 0xF4 then some ⟨n - 0xF0, 0x80, 0xBF, 3⟩
  else if n = 0xF4 then some ⟨4, 0x80, 0x8F, 3⟩
  else none

/-- Reads the bytes after the first one. The answer is the code point, or `none` where a byte is
out of bounds or missing, and what is left after the bytes that fitted. -/
def readFollowing (bits : Nat) (low high : UInt8) : Nat → Bytes → Option Nat × Bytes
  | 0, bs => (some bits, bs)
  | _ + 1, [] => (none, [])
  | more + 1, b :: bs =>
    if low ≤ b ∧ b ≤ high then
      readFollowing (bits * 64 + (b.toNat - 0x80)) 0x80 0xBF more bs
    else (none, b :: bs)

theorem length_readFollowing_le (bits : Nat) (low high : UInt8) (n : Nat) (bs : Bytes) :
    (readFollowing bits low high n bs).2.length ≤ bs.length := by
  induction n generalizing bits low high bs with
  | zero => simp [readFollowing]
  | succ n ih =>
    cases bs with
    | nil => simp [readFollowing]
    | cons b bs =>
      rw [readFollowing]
      split
      · exact Nat.le_trans (ih ..) (by simp)
      · simp

/-- Decodes bytes, with one U+FFFD for each maximal ill-formed stretch. -/
def decodeChars : Bytes → List Char
  | [] => []
  | b :: bs =>
    match leadByte? b with
    | none => '\uFFFD' :: decodeChars bs
    | some lead =>
      let read := readFollowing lead.bits lead.low lead.high lead.following bs
      (read.1.map Char.ofNat).getD '\uFFFD' :: decodeChars read.2
termination_by bs => bs.length
decreasing_by
  · simp
  · have := length_readFollowing_le lead.bits lead.low lead.high lead.following bs
    simp only [List.length_cons]
    omega

/-- Decodes bytes without setting a byte order mark apart. -/
def decodeUtf8 (bs : Bytes) : String :=
  String.ofList (decodeChars bs)

/-- The text of a file: a byte order mark at its start is dropped, then the rest is decoded. -/
def decode (bs : Bytes) : String :=
  match bs with
  | 0xEF :: 0xBB :: 0xBF :: rest => decodeUtf8 rest
  | _ => decodeUtf8 bs

end Text

end LogSearch
