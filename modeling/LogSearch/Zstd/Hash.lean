/-
The checksum of Zstandard frames: the low half of the 64-bit xxHash.

Four sums take in eight bytes each in turn, are joined, and then take in what is
left of the content.
-/
import LogSearch.Bytes

set_option autoImplicit false

namespace LogSearch.Zstd.Hash

/-- The first of the constants that spread the bits. -/
def prime₁ : UInt64 := 0x9E3779B185EBCA87
/-- The second constant. -/
def prime₂ : UInt64 := 0xC2B2AE3D27D4EB4F
/-- The third constant. -/
def prime₃ : UInt64 := 0x165667B19E3779F9
/-- The fourth constant. -/
def prime₄ : UInt64 := 0x85EBCA77C2B2AE63
/-- The fifth constant. -/
def prime₅ : UInt64 := 0x27D4EB2F165667C5

/-- Moves the bits up by `n` places, those that fall off to the low end. -/
def rotate (x n : UInt64) : UInt64 := (x <<< n) ||| (x >>> (64 - n))

/-- Takes a word into a sum. -/
def mix (sum word : UInt64) : UInt64 := rotate (sum + word * prime₂) 31 * prime₁

/-- Takes a sum into the joint one. -/
def join (h sum : UInt64) : UInt64 := (h ^^^ mix 0 sum) * prime₁ + prime₄

/-- The word at the front of some bytes. -/
def word (bytes : Bytes) : UInt64 := UInt64.ofNat (littleEndian (bytes.take 8))

/-- The four sums. -/
structure Sums where
  /-- The first sum. -/
  a : UInt64 := prime₁ + prime₂
  /-- The second sum. -/
  b : UInt64 := prime₂
  /-- The third sum. -/
  c : UInt64 := 0
  /-- The fourth sum. -/
  d : UInt64 := 0 - prime₁

/-- The joint sum. -/
def Sums.joint (s : Sums) : UInt64 :=
  let h := rotate s.a 1 + rotate s.b 7 + rotate s.c 12 + rotate s.d 18
  join (join (join (join h s.a) s.b) s.c) s.d

/-- Takes in rows of four words and gives the joint sum and what is left. -/
def rows (s : Sums) (bytes : Bytes) : UInt64 × Bytes :=
  if (bytes.take 32).length < 32 then (s.joint, bytes)
  else
    rows ⟨mix s.a (word bytes), mix s.b (word (bytes.drop 8)), mix s.c (word (bytes.drop 16)),
      mix s.d (word (bytes.drop 24))⟩ (bytes.drop 32)
termination_by bytes.length
decreasing_by
  simp only [List.length_take, List.length_drop] at *
  omega

/-- Takes in what is left: whole words, then half a word, then single bytes. -/
def rest (h : UInt64) (bytes : Bytes) : UInt64 :=
  match bytes with
  | [] => h
  | b :: tail =>
    if (bytes.take 8).length = 8 then
      rest (rotate (h ^^^ mix 0 (word bytes)) 27 * prime₁ + prime₄) (tail.drop 7)
    else if (bytes.take 4).length = 4 then
      let half := UInt64.ofNat (littleEndian (bytes.take 4))
      rest (rotate (h ^^^ (half * prime₁)) 23 * prime₂ + prime₃) (tail.drop 3)
    else rest (rotate (h ^^^ (b.toUInt64 * prime₅)) 11 * prime₁) tail
termination_by bytes.length
decreasing_by all_goals (simp only [List.length_drop, List.length_cons]; omega)

/-- Spreads the bits once more. -/
def finish (h : UInt64) : UInt64 :=
  let h := (h ^^^ (h >>> 33)) * prime₂
  let h := (h ^^^ (h >>> 29)) * prime₃
  h ^^^ (h >>> 32)

/-- The hash of some bytes. -/
def hash (bytes : Bytes) : UInt64 :=
  let (h, left) :=
    if (bytes.take 32).length < 32 then (prime₅, bytes) else rows {} bytes
  finish (rest (h + UInt64.ofNat bytes.length) left)

end LogSearch.Zstd.Hash
