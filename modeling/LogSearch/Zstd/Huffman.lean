/-
Huffman codes of literals.

A code is given by weights. A weight is 0 for a symbol that does not occur, and
otherwise the symbol gets half as much of the code space for each step that its
weight is below the greatest. The last weight is not written: it has to fill the
space to a power of two.

The table has a cell for every way in which the next bits can go on, so a symbol
is found by looking at as many bits as the longest word has. Rare symbols, which
have the longest words, come first.
-/
import LogSearch.Zstd.Fse

set_option autoImplicit false

namespace LogSearch.Zstd

/-- A table of code words. -/
structure Huffman where
  /-- The length of the longest word. -/
  depth : Nat
  /-- The symbol and the length of the word with which some bits start. -/
  cells : Array (Nat × Nat)
deriving Inhabited

/-- The longest word that is allowed. -/
def maxDepth : Nat := 12

/-- The space that a weight stands for. -/
def spaceOf (weight : Nat) : Nat := Nat.pow 2 weight / 2

/-- The table for some weights, the last of which is left out. -/
def Huffman.ofWeights? (weights : List Nat) : Option Huffman :=
  let used := (weights.map spaceOf).foldr (· + ·) 0
  let depth := used.log2 + 1
  let left := Nat.pow 2 depth - used
  let all := weights ++ [left.log2 + 1]
  if weights.any (maxDepth < ·) ∨ used = 0 ∨ maxDepth < depth ∨ Nat.pow 2 left.log2 ≠ left then none
  else if all.count 1 < 2 ∨ all.count 1 % 2 = 1 then none
  else
    let numbered := all.zipIdx
    let cells := (List.range depth).flatMap fun shorter =>
      (numbered.filter fun (weight, _) => weight = shorter + 1).flatMap fun (_, symbol) =>
        List.replicate (Nat.pow 2 shorter) (symbol, depth - shorter)
    some ⟨depth, cells.toArray⟩

/-- Reads a symbol. -/
def Huffman.next? (code : Huffman) (bits : Bits) : Option (Nat × Bits) :=
  let (symbol, length) := code.cells.getD (peekBack code.depth bits) (0, 0)
  (dropBack? length bits).map fun rest => (symbol, rest)

/-- Reads `n` symbols, which have to make use of all the bits. -/
def Huffman.symbols? (code : Huffman) : (n : Nat) → Bits → Array UInt8 → Option (Array UInt8)
  | 0, bits, out => if bits.isEmpty then some out else none
  | n + 1, bits, out =>
    match code.next? bits with
    | none => none
    | some (symbol, rest) => code.symbols? n rest (out.push (UInt8.ofNat symbol))

/-! ## Codes in a file -/

/-- Reads symbols in turn from two chains of cells that share their bits, at most `limit` and one
more. The bits end where one chain cannot go on; the other then gives its last symbol. -/
def takeInTurn? (table : Table) : (limit : Nat) → (first second : Cell) → Bits → Option (List Nat)
  | 0, _, _, _ => none
  | limit + 1, first, second, bits =>
    match table.next? first bits with
    | none => some [first.symbol, second.symbol]
    | some (next, rest) => (takeInTurn? table limit second next rest).map (first.symbol :: ·)

/-- Reads weights that are themselves coded. -/
def codedWeights? (bytes : Bytes) : Option (List Nat) := do
  let (table, rest) ← takeTable? 255 6 bytes
  let bits ← backward? rest
  let (first, bits) ← table.start? bits
  let (second, bits) ← table.start? bits
  takeInTurn? table 254 first second bits

/-- Weights that are written as they are, two to a byte. -/
def plainWeights (count : Nat) (bytes : Bytes) : List Nat :=
  (bytes.flatMap fun b => [b.toNat / 16, b.toNat % 16]).take count

/-- Reads a code. -/
def takeHuffman? (bytes : Bytes) : Option (Huffman × Bytes) := do
  let ⟨n, rest, _⟩ ← takeNumber? 1 bytes
  if n < 128 then
    let ⟨coded, rest, _⟩ ← takeField? n rest
    return (← Huffman.ofWeights? (← codedWeights? coded), rest)
  else
    let count := n - 127
    let ⟨plain, rest, _⟩ ← takeField? ((count + 1) / 2) rest
    return (← Huffman.ofWeights? (plainWeights count plain), rest)

end LogSearch.Zstd
