/-
Bits that are read from the end.

Coded symbols are written in reverse, so that a decoder that goes backwards meets
them in order. The last byte ends with a single 1 above the bits in use; it marks
where to start. In this direction a number has its high bits first.
-/
import LogSearch.Bits

set_option autoImplicit false

namespace LogSearch.Zstd

/-- The bits of a stream in the order of reading, or `none` without the mark in its last byte. -/
def backward? (bytes : Bytes) : Option Bits :=
  match bytes.getLast? with
  | none => none
  | some last =>
    if last = 0 then none
    else some ((bitsOf bytes).reverse.dropWhile (!·)).tail

/-- Reads a number of `n` bits. -/
def takeBack? : (n : Nat) → Bits → Option (Nat × Bits)
  | 0, bits => some (0, bits)
  | _ + 1, [] => none
  | n + 1, b :: bits =>
    match takeBack? n bits with
    | none => none
    | some (value, rest) => some (b.toNat * Nat.pow 2 n + value, rest)

/-- The number that the next `n` bits make, where bits behind the end count as 0. -/
def peekBack : (n : Nat) → Bits → Nat
  | 0, _ => 0
  | _ + 1, [] => 0
  | n + 1, b :: bits => b.toNat * Nat.pow 2 n + peekBack n bits

/-- Drops `n` bits, or `none` where there are fewer. -/
def dropBack? : (n : Nat) → Bits → Option Bits
  | 0, bits => some bits
  | _ + 1, [] => none
  | n + 1, _ :: bits => dropBack? n bits

end LogSearch.Zstd
