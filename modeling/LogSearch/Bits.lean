/-
The bits of a compressed stream.

Bytes are filled from the low bit up, so a stream is the list of its bits in that
order. A number takes its low bits first as well. Whatever reads from the front
hands back the rest with the proof that it has not grown; loops over the stream
end by that.
-/
import LogSearch.Text.Utf8

set_option autoImplicit false

namespace LogSearch

/-- The bits that are still to be read. -/
abbrev Bits := List Bool

/-- The bits of a byte from the low end up. -/
def bitsOfByte (b : UInt8) : Bits :=
  (List.range 8).map fun i => b.toNat.testBit i

/-- The bits of some bytes. -/
def bitsOf (bytes : Bytes) : Bits :=
  bytes.flatMap bitsOfByte

/-- Something read off the front of some bits, and what is left of them. -/
structure Taken (α : Type) (bits : Bits) where
  /-- What was read. -/
  value : α
  /-- The bits behind it. -/
  rest : Bits
  /-- Nothing was added. -/
  notLonger : rest.length ≤ bits.length

/-- Reads a number of `n` bits, or `none` where there are fewer. -/
def takeNat : (n : Nat) → (bits : Bits) → Option (Taken Nat bits)
  | 0, bits => some ⟨0, bits, Nat.le_refl _⟩
  | _ + 1, [] => none
  | n + 1, b :: bits =>
    match takeNat n bits with
    | none => none
    | some ⟨value, rest, h⟩ => some ⟨2 * value + b.toNat, rest, Nat.le_succ_of_le h⟩

/-- The bits from the next byte on. A stream has whole bytes, so what is left of the byte in
progress is the remainder of the number of bits by eight. -/
def alignToByte (bits : Bits) : Bits :=
  bits.drop (bits.length % 8)

theorem length_alignToByte_le (bits : Bits) : (alignToByte bits).length ≤ bits.length := by
  rw [alignToByte, List.length_drop]
  exact Nat.sub_le _ _

end LogSearch
