/-
Huffman codes, given by the lengths of their code words.

Code words of one length are consecutive numbers in the order of their symbols,
and shorter ones come first. So the tree grows by itself: going through the
symbols ordered by length, each takes the leftmost free place of its depth.

The lengths have to fill the tree exactly. One exception is made: a code whose
only word has one bit may leave the other bit unused, and a code may have no
words at all. Reading an unused word is then an error when it happens.
-/
import LogSearch.Bits

set_option autoImplicit false

namespace LogSearch.Deflate

/-- A tree of code words. -/
inductive Tree where
  /-- No code word goes this way. -/
  | unused
  /-- A code word ends here. -/
  | leaf (symbol : Nat)
  /-- The next bit decides. -/
  | branch (zero one : Tree)
deriving Repr, Inhabited

/-- A tree that has at least one bit to each code word. -/
structure Code where
  /-- The words that start with a 0. -/
  zero : Tree
  /-- The words that start with a 1. -/
  one : Tree
deriving Repr, Inhabited

/-- What comes of reading a code word. -/
inductive Lookup (bits : Bits) where
  /-- The symbol of the word, and the bits behind it. -/
  | symbol (n : Nat) (rest : Bits) (shorter : rest.length < bits.length)
  /-- The bits are not the start of a code word. -/
  | unused
  /-- The bits end inside a code word. -/
  | exhausted

/-- Goes down a tree. -/
def Tree.descend : Tree → (bits : Bits) → Option (Option (Taken Nat bits))
  | .unused, _ => some none
  | .leaf n, bits => some (some ⟨n, bits, Nat.le_refl _⟩)
  | .branch _ _, [] => none
  | .branch zero one, b :: bits =>
    match (if b then one else zero).descend bits with
    | none => none
    | some none => some none
    | some (some ⟨n, rest, h⟩) => some (some ⟨n, rest, Nat.le_succ_of_le h⟩)
termination_by tree => tree
decreasing_by cases b <;> simp <;> omega

/-- Reads a code word. -/
def Code.read (code : Code) : (bits : Bits) → Lookup bits
  | [] => .exhausted
  | b :: bits =>
    match (if b then code.one else code.zero).descend bits with
    | none => .exhausted
    | some none => .unused
    | some (some ⟨n, rest, h⟩) => .symbol n rest (Nat.lt_succ_of_le h)

/-- The longest code word that DEFLATE allows. -/
def maxLength : Nat := 15

/-- Grows the part of the tree below `depth`, with `steps` more levels to go, from symbols that are
ordered by the lengths of their words. The symbols that have found no place are returned. -/
def grow : Nat → Nat → List (Nat × Nat) → Tree × List (Nat × Nat)
  | _, _, [] => (.unused, [])
  | 0, _, (_, symbol) :: rest => (.leaf symbol, rest)
  | steps + 1, depth, (length, symbol) :: rest =>
    if length ≤ depth then (.leaf symbol, rest)
    else
      let (zero, others) := grow steps (depth + 1) ((length, symbol) :: rest)
      let (one, others) := grow steps (depth + 1) others
      (.branch zero one, others)

/-- The symbols that have code words, ordered by the lengths of these and then by number. -/
def wordsByLength (lengths : List Nat) : List (Nat × Nat) :=
  let used := lengths.zipIdx.filter fun (length, _) => length ≠ 0
  (List.range (maxLength + 1)).flatMap fun n => used.filter fun (length, _) => length = n

/-- How much of the tree code words take up, where all of it is two to the greatest length. -/
def space (lengths : List Nat) : Nat :=
  ((lengths.filter (· ≠ 0)).map fun length => Nat.pow 2 (maxLength - length)).foldr (· + ·) 0

/-- The code with the given lengths, where 0 stands for a symbol without a word. A code that must
be full has no exception for a single word. -/
def Code.ofLengths? (mustBeFull : Bool) (lengths : List Nat) : Option Code :=
  let words := wordsByLength lengths
  let full := Nat.pow 2 maxLength
  if words.isEmpty then some ⟨.unused, .unused⟩
  else if full < space lengths then none
  else if space lengths < full ∧ (mustBeFull ∨ words.any fun (length, _) => length ≠ 1) then none
  else
    let (zero, others) := grow (maxLength - 1) 1 words
    some ⟨zero, (grow (maxLength - 1) 1 others).1⟩

end LogSearch.Deflate
