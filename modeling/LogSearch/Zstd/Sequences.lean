/-
The sequences of a block.

A sequence copies some literals and then repeats some bytes from further up. Its
three numbers, the number of literals, the length of the repetition and how far
back it reaches, are coded each with a table of its own and with bits that are
added to it. Blocks may use tables that are fixed, that stand for one symbol
only, that are new, or that were used before.

The last three distances are kept. Small distance numbers refer to them, with a
shift by one where a sequence has no literals, because then the distance just
used would only go on with the same repetition.
-/
import LogSearch.Zstd.Literals

set_option autoImplicit false

namespace LogSearch.Zstd

/-! ## Tables -/

/-- The tables of a block. -/
structure Tables where
  /-- The table of the numbers of literals. -/
  literals : Table
  /-- The table of the distances. -/
  distances : Table
  /-- The table of the lengths. -/
  lengths : Table

/-- What is given for one of the three numbers. -/
structure NumberKind where
  /-- The greatest symbol. -/
  greatest : Nat
  /-- The most bits of a cell number. -/
  accuracy : Nat
  /-- The table that is used without a description. -/
  fixed : Table

/-- Shares in the form in which they are usually given, where -1 stands for a rare symbol. -/
def sharesOf (given : List Int) : List Share :=
  given.map fun n => if n < 0 then .rare else .cells n.toNat

/-- The numbers of literals. -/
def literalsKind : NumberKind :=
  ⟨35, 9, Table.ofShares 6 (sharesOf [4, 3, 2, 2, 2, 2, 2, 2, 2, 2, 2, 2, 2, 1, 1, 1, 2, 2, 2, 2, 2,
    2, 2, 2, 2, 3, 2, 1, 1, 1, 1, 1, -1, -1, -1, -1])⟩

/-- The distances. -/
def distancesKind : NumberKind :=
  ⟨31, 8, Table.ofShares 5 (sharesOf [1, 1, 1, 1, 1, 1, 2, 2, 2, 1, 1, 1, 1, 1, 1, 1, 1, 1, 1, 1, 1,
    1, 1, 1, -1, -1, -1, -1, -1])⟩

/-- The lengths. -/
def lengthsKind : NumberKind :=
  ⟨52, 9, Table.ofShares 6 (sharesOf [1, 4, 3, 2, 2, 2, 2, 2, 2, 1, 1, 1, 1, 1, 1, 1, 1, 1, 1, 1, 1,
    1, 1, 1, 1, 1, 1, 1, 1, 1, 1, 1, 1, 1, 1, 1, 1, 1, 1, 1, 1, 1, 1, 1, 1, 1, -1, -1, -1, -1, -1,
    -1, -1])⟩

/-- Reads the table for one of the numbers. -/
def NumberKind.takeTable? (kind : NumberKind) (mode : Nat) (previous : Option Table)
    (bytes : Bytes) : Option (Table × Bytes) :=
  match mode with
  | 0 => some (kind.fixed, bytes)
  | 1 => do
    let ⟨symbol, rest, _⟩ ← takeNumber? 1 bytes
    guard (symbol ≤ kind.greatest)
    return (Table.single symbol, rest)
  | 2 => Zstd.takeTable? kind.greatest kind.accuracy bytes
  | _ => previous.map fun table => (table, bytes)

/-- Reads the three tables. -/
def takeTables? (modes : Nat) (previous : Option Tables) (bytes : Bytes) :
    Option (Tables × Bytes) := do
  let (literals, bytes) ←
    literalsKind.takeTable? (modes / 64) (previous.map (·.literals)) bytes
  let (distances, bytes) ←
    distancesKind.takeTable? (modes / 16 % 4) (previous.map (·.distances)) bytes
  let (lengths, bytes) ←
    lengthsKind.takeTable? (modes / 4 % 4) (previous.map (·.lengths)) bytes
  return (⟨literals, distances, lengths⟩, bytes)

/-! ## Numbers -/

/-- Bases and added bits of the numbers of literals. -/
def literalsBases : Array (Nat × Nat) :=
  (Array.range 16).map (fun n => (n, 0)) ++
    #[(16, 1), (18, 1), (20, 1), (22, 1), (24, 2), (28, 2), (32, 3), (40, 3), (48, 4), (64, 6),
      (128, 7), (256, 8), (512, 9), (1024, 10), (2048, 11), (4096, 12), (8192, 13), (16384, 14),
      (32768, 15), (65536, 16)]

/-- Bases and added bits of the lengths. -/
def lengthsBases : Array (Nat × Nat) :=
  (Array.range 32).map (fun n => (n + 3, 0)) ++
    #[(35, 1), (37, 1), (39, 1), (41, 1), (43, 2), (47, 2), (51, 3), (59, 3), (67, 4), (83, 4),
      (99, 5), (131, 7), (259, 8), (515, 9), (1027, 10), (2051, 11), (4099, 12), (8195, 13),
      (16387, 14), (32771, 15), (65539, 16)]

/-- Reads a number that has a base and added bits. -/
def takeBased? (bases : Array (Nat × Nat)) (symbol : Nat) (bits : Bits) : Option (Nat × Bits) :=
  let (base, extra) := bases.getD symbol (0, 0)
  (takeBack? extra bits).map fun (n, rest) => (base + n, rest)

/-- The last three distances, the latest first. -/
structure Distances where
  /-- The latest. -/
  first : Nat
  /-- The one before it. -/
  second : Nat
  /-- The one before that. -/
  third : Nat
deriving DecidableEq, Repr

/-- The distances at the start of a frame. -/
def Distances.initial : Distances := ⟨1, 4, 8⟩

/-- The distances after one that is given by the number `n`, which comes first in the answer. From 4
on `n` is three more than the distance. A distance of 0 reaches nowhere and is an error when it is
used. -/
def Distances.next (d : Distances) (n : Nat) (withoutLiterals : Bool) : Distances :=
  if 3 < n then ⟨n - 3, d.first, d.second⟩
  else
    match if withoutLiterals then n + 1 else n with
    | 1 => d
    | 2 => ⟨d.second, d.first, d.third⟩
    | 3 => ⟨d.third, d.first, d.second⟩
    | _ => ⟨d.first - 1, d.first, d.second⟩

/-- A sequence. -/
structure Sequence where
  /-- How many literals are copied. -/
  literals : Nat
  /-- How many bytes are repeated. -/
  length : Nat
  /-- How far back they are. -/
  distance : Nat

/-- The cells of the three tables. -/
structure Cells where
  /-- The cell for the number of literals. -/
  literals : Cell
  /-- The cell for the distance. -/
  distance : Cell
  /-- The cell for the length. -/
  length : Cell

/-- Reads a sequence. -/
def Cells.sequence? (cells : Cells) (distances : Distances) (bits : Bits) :
    Option (Sequence × Distances × Bits) := do
  let width := cells.distance.symbol
  let (n, bits) ← takeBack? width bits
  let (length, bits) ← takeBased? lengthsBases cells.length.symbol bits
  let (literals, bits) ← takeBased? literalsBases cells.literals.symbol bits
  let distances := distances.next (Nat.pow 2 width + n) (literals = 0)
  return (⟨literals, length, distances.first⟩, distances, bits)

/-- Reads the cells at the start. -/
def Tables.start? (tables : Tables) (bits : Bits) : Option (Cells × Bits) := do
  let (literals, bits) ← tables.literals.start? bits
  let (distance, bits) ← tables.distances.start? bits
  let (length, bits) ← tables.lengths.start? bits
  return (⟨literals, distance, length⟩, bits)

/-- Reads the cells that follow others. -/
def Tables.next? (tables : Tables) (cells : Cells) (bits : Bits) : Option (Cells × Bits) := do
  let (literals, bits) ← tables.literals.next? cells.literals bits
  let (length, bits) ← tables.lengths.next? cells.length bits
  let (distance, bits) ← tables.distances.next? cells.distance bits
  return (⟨literals, distance, length⟩, bits)

/-! ## Execution -/

/-- The content of a frame so far and the literals that are still to be copied. -/
structure Output where
  /-- The content. -/
  out : Array UInt8
  /-- The literals of the block. -/
  literals : Array UInt8
  /-- How many of them have been copied. -/
  used : Nat

/-- Carries out a sequence where the content may have `limit` bytes in all. -/
def Output.apply (o : Output) (limit : Nat) (s : Sequence) : Except Defect Output :=
  if limit < o.out.size + s.literals + s.length then .error .tooLong
  else if o.literals.size < o.used + s.literals then .error .corrupt
  else
    let out := o.out ++ o.literals.extract o.used (o.used + s.literals)
    if s.distance = 0 ∨ out.size < s.distance then .error .corrupt
    else .ok { o with out := repeatBack s.distance s.length out, used := o.used + s.literals }

/-- Appends the literals that are left. -/
def Output.finish (o : Output) (limit : Nat) : Except Defect (Array UInt8) :=
  let out := o.out ++ o.literals.extract o.used o.literals.size
  if limit < out.size then .error .tooLong else .ok out

/-- Reads and carries out `n` more sequences, which have to make use of all the bits. -/
def runSequences (tables : Tables) (limit : Nat) :
    (n : Nat) → Cells → Distances → Bits → Output → Except Defect (Output × Distances)
  | 0, _, distances, bits, o => if bits.isEmpty then .ok (o, distances) else .error .corrupt
  | n + 1, cells, distances, bits, o =>
    match cells.sequence? distances bits with
    | none => .error .corrupt
    | some (s, distances, bits) =>
      match o.apply limit s with
      | .error e => .error e
      | .ok o =>
        -- behind the last sequence no cells follow
        match if n = 0 then some (cells, bits) else tables.next? cells bits with
        | none => .error .corrupt
        | some (cells, bits) => runSequences tables limit n cells distances bits o

/-- Reads how many sequences there are. -/
def takeCount? (bytes : Bytes) : Option (Nat × Bytes) := do
  let ⟨first, rest, _⟩ ← takeNumber? 1 bytes
  if first < 128 then return (first, rest)
  else if first < 255 then
    let ⟨low, rest, _⟩ ← takeNumber? 1 rest
    return ((first - 128) * 256 + low, rest)
  else
    let ⟨n, rest, _⟩ ← takeNumber? 2 rest
    return (n + 0x7F00, rest)

/-- What one block leaves to the next. -/
structure Memory where
  /-- The last code of literals. -/
  code : Option Huffman := none
  /-- The last tables of sequences. -/
  tables : Option Tables := none
  /-- The last distances. -/
  distances : Distances := .initial

/-- Appends the content of a coded block to that of the blocks before. -/
def decodeCoded (limits : Limits) (memory : Memory) (block : Bytes) (out : Array UInt8) :
    Except Defect (Array UInt8 × Memory) := do
  let limit := out.size + limits.room
  let ⟨literals, code, rest⟩ ← takeLiterals limits memory.code block
  let memory := { memory with code }
  let o : Output := ⟨out, literals, 0⟩
  let (count, rest) ← orDefect .sourceSize (takeCount? rest)
  if count = 0 then
    if ¬rest.isEmpty then throw .corrupt
    return (← o.finish limit, memory)
  else
    let ⟨modes, rest, _⟩ ← orDefect .sourceSize (takeNumber? 1 rest)
    if modes % 4 ≠ 0 then throw .corrupt
    let (tables, rest) ← orDefect .corrupt (takeTables? modes memory.tables rest)
    let bits ← orDefect .corrupt (backward? rest)
    let (cells, bits) ← orDefect .corrupt (tables.start? bits)
    let (o, distances) ← runSequences tables limit count cells memory.distances bits o
    return (← o.finish limit, { memory with tables := some tables, distances })

end LogSearch.Zstd
