/-
Finite state entropy codes.

A decoder is in one of the cells of a table. The cell names a symbol, and some
bits then lead from it to the next cell. Each symbol owns a share of the cells;
the larger the share, the fewer bits it takes to reach one of them. A symbol
that is too rare for a full cell still gets one, at the end of the table, and is
left by reading all the bits of a cell number.

The cells of the other symbols are scattered over the table by a fixed step,
which is odd and so comes to each cell once.
-/
import LogSearch.Bytes
import LogSearch.Zstd.BackwardBits

set_option autoImplicit false

namespace LogSearch.Zstd

/-- How much of a table a symbol owns. -/
inductive Share where
  /-- Less than a cell. -/
  | rare
  /-- Some cells, or none. -/
  | cells (n : Nat)
deriving DecidableEq, Repr

/-- The number of cells that a symbol gets. -/
def Share.size : Share → Nat
  | rare => 1
  | cells n => n

/-- A cell of a table. -/
structure Cell where
  /-- The symbol that it stands for. -/
  symbol : Nat
  /-- How many bits lead on from it. -/
  bits : Nat
  /-- The cell to which these bits are added. -/
  base : Nat
deriving DecidableEq, Repr, Inhabited

/-- A table. -/
structure Table where
  /-- The number of bits in the number of a cell. -/
  accuracy : Nat
  /-- The cells. -/
  cells : Array Cell
deriving Inhabited

/-- The table in which every cell stands for one symbol. -/
def Table.single (symbol : Nat) : Table := ⟨0, #[⟨symbol, 0, 0⟩]⟩

/-- The symbols of the cells in order. -/
def spread (accuracy : Nat) (shares : List Share) : List Nat :=
  let size := Nat.pow 2 accuracy
  let step := size / 2 + size / 8 + 3
  let numbered := shares.zipIdx
  let rare := (numbered.filter fun (share, _) => share = .rare).map (·.2)
  let common := numbered.flatMap fun
    | (.rare, _) => []
    | (.cells n, symbol) => List.replicate n symbol
  let room := size - rare.length
  let places := ((List.range size).map fun k => k * step % size).filter (· < room)
  let filled := (places.zip common).foldl
    (fun (cells : Array Nat) (place, symbol) => cells.setIfInBounds place symbol)
    (Array.replicate size 0)
  filled.toList.take room ++ rare.reverse

/-- Numbers the cells of each symbol upwards from the size of its share. The number `n` of a cell
tells how to leave it: the bits that `n` lacks to the length of a cell number are read and put
behind it. -/
def Table.ofShares (accuracy : Nat) (shares : List Share) : Table :=
  let numbers := (shares.map Share.size).toArray
  let (_, cells) := (spread accuracy shares).foldl
    (fun (numbers, cells) symbol =>
      let number := numbers.getD symbol 1
      let bits := accuracy - number.log2
      (numbers.setIfInBounds symbol (number + 1),
        cells.push (Cell.mk symbol bits (number * Nat.pow 2 bits - Nat.pow 2 accuracy))))
    (numbers, #[])
  ⟨accuracy, cells⟩

/-- The cell that a number names. -/
def Table.cell (table : Table) (n : Nat) : Cell := table.cells.getD n default

/-- Reads the first cell. -/
def Table.start? (table : Table) (bits : Bits) : Option (Cell × Bits) :=
  (takeBack? table.accuracy bits).map fun (n, rest) => (table.cell n, rest)

/-- Reads the cell that follows another. -/
def Table.next? (table : Table) (cell : Cell) (bits : Bits) : Option (Cell × Bits) :=
  (takeBack? cell.bits bits).map fun (n, rest) => (table.cell (cell.base + n), rest)

/-! ## Tables in a file -/

/-- Reads a share where `left` cells are left to share out. It is a number up to `left + 1`, written
in as many bits as that takes, where the small numbers save a bit as far as there is room. -/
def takeShare? (left : Nat) (bits : Bits) : Option (Share × Bits) := do
  let width := (left + 1).log2
  let spare := Nat.pow 2 (width + 1) - 2 - left
  let ⟨low, rest, _⟩ ← takeNat width bits
  let (n, rest) ←
    if low < spare then pure (low, rest)
    else do
      let ⟨high, rest, _⟩ ← takeNat 1 rest
      pure (if high = 1 then (low + Nat.pow 2 width - spare, rest) else (low, rest))
  return (if n = 0 then .rare else .cells (n - 1), rest)

/-- Reads how many more symbols without cells follow one. -/
def takeZeros? : Bits → Option (Nat × Bits)
  | true :: true :: bits => (takeZeros? bits).map fun (n, rest) => (n + 3, rest)
  | low :: high :: bits => some (low.toNat + 2 * high.toNat, bits)
  | _ => none

/-- Reads the shares of at most `symbols` symbols in `left` cells. -/
def takeShares? (symbols left : Nat) (bits : Bits) : Option (List Share × Bits) :=
  if left = 0 then some ([], bits)
  else
    match symbols with
    | 0 => none
    | symbols + 1 =>
      match takeShare? left bits with
      | none => none
      | some (.cells 0, rest) =>
        match takeZeros? rest with
        | none => none
        | some (zeros, rest) =>
          if symbols ≤ zeros then none
          else (takeShares? (symbols - zeros) left rest).map fun (shares, rest) =>
            (List.replicate (zeros + 1) (.cells 0) ++ shares, rest)
      | some (share, rest) =>
        (takeShares? symbols (left - share.size) rest).map fun (shares, rest) =>
          (share :: shares, rest)
termination_by symbols
decreasing_by all_goals omega

/-- Reads a table for symbols up to `greatest`, with at most `accuracy` bits to a cell number. -/
def takeTable? (greatest accuracy : Nat) (bytes : Bytes) : Option (Table × Bytes) := do
  let ⟨n, rest, _⟩ ← takeNat 4 (bitsOf bytes)
  guard (n + 5 ≤ accuracy)
  let (shares, rest) ← takeShares? (greatest + 1) (Nat.pow 2 (n + 5)) rest
  return (Table.ofShares (n + 5) shares, bytes.drop (bytes.length - rest.length / 8))

end LogSearch.Zstd
