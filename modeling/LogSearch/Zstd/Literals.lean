/-
The literals of a block.

They are written as they are, as one byte that is repeated, or in a Huffman code,
which is new or that of a block before. Coded literals come in one stream or in
four, so that four can be decoded at once; the first three have the same number
of literals.
-/
import LogSearch.Zstd.Defect
import LogSearch.Zstd.Huffman

set_option autoImplicit false

namespace LogSearch.Zstd

/-- The literals of a block, and what they leave behind. -/
structure Literals where
  /-- The literals. -/
  content : Array UInt8
  /-- The code for blocks to come. -/
  code : Option Huffman
  /-- The rest of the block. -/
  rest : Bytes

/-- What limits a block. -/
structure Limits where
  /-- The greatest size of a block. -/
  block : Nat
  /-- The room for content that is left. -/
  room : Nat

/-- Checks the number of literals. -/
def Limits.checkLiterals (limits : Limits) (n : Nat) : Except Defect Unit :=
  if limits.block < n then .error .corrupt
  else if limits.room < n then .error .tooLong
  else .ok ()

/-- The lengths of the header and of the literals where these are not coded. -/
def plainLengths (format start : Nat) : Nat × Nat :=
  if format = 1 then (2, start % Nat.pow 2 16 / 16)
  else if format = 3 then (3, start % Nat.pow 2 24 / 16)
  else (1, start % Nat.pow 2 8 / 8)

/-- The lengths of the header, of the literals and of their code where they are coded. -/
def codedLengths (format start : Nat) : Nat × Nat × Nat :=
  let width := if format = 3 then 18 else if format = 2 then 14 else 10
  (if format = 3 then 5 else if format = 2 then 4 else 3,
    start / 16 % Nat.pow 2 width, start / Nat.pow 2 (4 + width) % Nat.pow 2 width)

/-- Decodes one stream of `n` literals. -/
def decodeStream? (code : Huffman) (n : Nat) (bytes : Bytes) (out : Array UInt8) :
    Option (Array UInt8) :=
  (backward? bytes).bind fun bits => code.symbols? n bits out

/-- Decodes four streams of `n` literals in all. The lengths of the first three are in front. -/
def decodeStreams? (code : Huffman) (n : Nat) (bytes : Bytes) : Option (Array UInt8) := do
  let part := (n + 3) / 4
  guard (3 * part ≤ n)
  let ⟨length₁, rest, _⟩ ← takeNumber? 2 bytes
  let ⟨length₂, rest, _⟩ ← takeNumber? 2 rest
  let ⟨length₃, rest, _⟩ ← takeNumber? 2 rest
  let ⟨stream₁, rest, _⟩ ← takeField? length₁ rest
  let ⟨stream₂, rest, _⟩ ← takeField? length₂ rest
  let ⟨stream₃, stream₄, _⟩ ← takeField? length₃ rest
  let out ← decodeStream? code part stream₁ #[]
  let out ← decodeStream? code part stream₂ out
  let out ← decodeStream? code part stream₃ out
  decodeStream? code (n - 3 * part) stream₄ out

/-- Reads literals in a Huffman code; `previous` is the code of a block before. -/
def takeCoded (limits : Limits) (isRepeat : Bool) (previous : Option Huffman) (format : Nat)
    (block : Bytes) : Except Defect Literals := do
  if isRepeat ∧ previous.isNone then throw .missingCode
  let ⟨start, _, _⟩ ← orDefect .corrupt (takeNumber? 5 block)
  let (headerLength, n, codeLength) := codedLengths format start
  if limits.block < n then throw .corrupt
  if format ≠ 0 ∧ n < 6 then throw .literalsHeader
  let ⟨coded, rest, _⟩ ← orDefect .corrupt (takeField? codeLength (block.drop headerLength))
  if limits.room < n then throw .tooLong
  let (code, streams) ← orDefect .corrupt <|
    if isRepeat then previous.map fun code => (code, coded) else takeHuffman? coded
  let content ← orDefect .corrupt <|
    if format = 0 then decodeStream? code n streams #[] else decodeStreams? code n streams
  return ⟨content, some code, rest⟩

/-- Reads the literals at the start of a block. -/
def takeLiterals (limits : Limits) (previous : Option Huffman) (block : Bytes) :
    Except Defect Literals := do
  if (block.take 2).length < 2 then throw .corrupt
  let first := (block.headD 0).toNat
  let format := first / 4 % 4
  let start := littleEndian (block.take 3)
  let (headerLength, n) := plainLengths format start
  match first % 4 with
  | 0 =>
    if (block.take headerLength).length < headerLength then throw .corrupt
    limits.checkLiterals n
    let ⟨content, rest, _⟩ ← orDefect .corrupt (takeField? n (block.drop headerLength))
    return ⟨content.toArray, previous, rest⟩
  | 1 =>
    let ⟨field, rest, _⟩ ← orDefect .corrupt (takeField? (headerLength + 1) block)
    limits.checkLiterals n
    return ⟨Array.replicate n (field.getLastD 0), previous, rest⟩
  | kind => takeCoded limits (kind = 3) previous format block

end LogSearch.Zstd
