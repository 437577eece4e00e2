/-
Decompressing DEFLATE.

A stream is a row of blocks, the last of them marked. A block is stored as it
is, or it is coded: literal bytes and references that repeat what came up to
32768 bytes before. The codes are fixed ones or stand in front of the block,
themselves coded.

A stream that ends too early is no error here. What it gives up to that point is
returned with the fact that it was cut short, since some containers make do
with it. An error is reported for the first thing that cannot be right, in the
order in which a reader meets it; a field that is cut short is not judged.
-/
import LogSearch.Bytes
import LogSearch.Deflate.Huffman

set_option autoImplicit false

namespace LogSearch.Deflate

/-- What cannot be right in a stream. -/
inductive Defect where
  /-- The kind of a block is none of the three. -/
  | blockType
  /-- The length of a stored block and its complement do not match. -/
  | storedLengths
  /-- A block announces more codes than there are symbols. -/
  | symbolCount
  /-- The code of the code lengths is none. -/
  | codeLengthsSet
  /-- A repetition of code lengths has nothing to repeat, or goes on too long. -/
  | lengthRepeat
  /-- There is no code word for the end of the block. -/
  | missingEnd
  /-- The code of the literals and lengths is none. -/
  | literalsSet
  /-- The code of the distances is none. -/
  | distancesSet
  /-- The bits are no literal or length. -/
  | literalCode
  /-- The bits are no distance. -/
  | distanceCode
  /-- A reference goes back to before the start. -/
  | distanceTooFar
deriving DecidableEq, Repr

/-- What is wrong with a stream. -/
def Defect.message : Defect → String
  | blockType => "invalid block type"
  | storedLengths => "invalid stored block lengths"
  | symbolCount => "too many length or distance symbols"
  | codeLengthsSet => "invalid code lengths set"
  | lengthRepeat => "invalid bit length repeat"
  | missingEnd => "invalid code -- missing end-of-block"
  | literalsSet => "invalid literal/lengths set"
  | distancesSet => "invalid distances set"
  | literalCode => "invalid literal/length code"
  | distanceCode => "invalid distance code"
  | distanceTooFar => "invalid distance too far back"

/-- Why reading does not go on. -/
inductive Stop where
  /-- The stream has ended. -/
  | exhausted
  /-- The stream is wrong. -/
  | corrupt (d : Defect)
deriving DecidableEq, Repr

/-- Reads a number of `n` bits, and stops where there are fewer. -/
def takeOrStop (n : Nat) (bits : Bits) : Except Stop (Taken Nat bits) :=
  match takeNat n bits with
  | some taken => .ok taken
  | none => .error .exhausted

/-! ## Codes of a block -/

/-- The two codes of a block. -/
structure Codes where
  /-- The code of the literals, the end of the block and the lengths. -/
  literals : Code
  /-- The code of the distances. -/
  distances : Code

/-- The lengths of the fixed code words for literals and lengths. -/
def fixedLiteralLengths : List Nat :=
  List.replicate 144 8 ++ List.replicate 112 9 ++ List.replicate 24 7 ++ List.replicate 8 8

/-- The codes of blocks that bring none of their own. -/
def fixedCodes : Codes where
  literals := (Code.ofLengths? true fixedLiteralLengths).getD default
  distances := (Code.ofLengths? true (List.replicate 32 5)).getD default

/-- The order in which the lengths for the code of code lengths are given. -/
def lengthOrder : List Nat :=
  [16, 17, 18, 0, 8, 7, 9, 6, 10, 5, 11, 4, 12, 3, 13, 2, 14, 1, 15]

/-- Reads `count` lengths of three bits each. -/
def takeShortLengths : (count : Nat) → (bits : Bits) → Except Stop (Taken (List Nat) bits)
  | 0, bits => .ok ⟨[], bits, Nat.le_refl _⟩
  | count + 1, bits =>
    match takeOrStop 3 bits with
    | .error e => .error e
    | .ok ⟨length, rest, h⟩ =>
      match takeShortLengths count rest with
      | .error e => .error e
      | .ok ⟨lengths, rest', h'⟩ => .ok ⟨length :: lengths, rest', Nat.le_trans h' h⟩

/-- The code of the code lengths. Without any words it reads every bit as the length 0. -/
def lengthCode? (given : List Nat) : Option Code :=
  let lengths := (List.range 19).map fun symbol =>
    ((lengthOrder.zip given).lookup symbol).getD 0
  if lengths.all (· = 0) then some ⟨.leaf 0, .leaf 0⟩ else Code.ofLengths? true lengths

/-- A run of code lengths, as one code word gives it. -/
structure Run (bits : Bits) where
  /-- The length that is repeated. -/
  length : Nat
  /-- How often it comes. -/
  count : Nat
  /-- The bits behind the run. -/
  rest : Bits
  /-- Something was read. -/
  shorter : rest.length < bits.length

/-- Reads a run of code lengths; `previous` is the last length in front of it. -/
def takeRun (code : Code) (previous : Option Nat) (bits : Bits) : Except Stop (Run bits) :=
  match code.read bits with
  | .exhausted => .error .exhausted
  | .unused => .error (.corrupt .codeLengthsSet)
  | .symbol n rest h =>
    if n < 16 then .ok ⟨n, 1, rest, h⟩
    else
      let (extra, base) := if n = 16 then (2, 3) else if n = 17 then (3, 3) else (7, 11)
      match takeOrStop extra rest with
      | .error e => .error e
      | .ok ⟨more, rest', h'⟩ =>
        if n = 16 then
          match previous with
          | none => .error (.corrupt .lengthRepeat)
          | some length => .ok ⟨length, base + more, rest', Nat.lt_of_le_of_lt h' h⟩
        else .ok ⟨0, base + more, rest', Nat.lt_of_le_of_lt h' h⟩

/-- Reads `need` more code lengths. -/
def takeLengths (code : Code) (need : Nat) (previous : Option Nat) (bits : Bits) :
    Except Stop (Taken (List Nat) bits) :=
  if need = 0 then .ok ⟨[], bits, Nat.le_refl _⟩
  else
    match takeRun code previous bits with
    | .error e => .error e
    | .ok ⟨length, count, rest, h⟩ =>
      if need < count then .error (.corrupt .lengthRepeat)
      else
        match takeLengths code (need - count) (some length) rest with
        | .error e => .error e
        | .ok ⟨lengths, rest', h'⟩ =>
          .ok ⟨List.replicate count length ++ lengths, rest', by omega⟩
termination_by bits.length

/-- Reads the codes at the start of a block. -/
def takeCodes (bits : Bits) : Except Stop (Taken Codes bits) := do
  let ⟨header, rest, h₁⟩ ← takeOrStop 14 bits
  let literalCount := header % 32 + 257
  let distanceCount := header / 32 % 32 + 1
  if 286 < literalCount ∨ 30 < distanceCount then throw (.corrupt .symbolCount)
  let ⟨given, rest, h₂⟩ ← takeShortLengths (header / 1024 + 4) rest
  let some code := lengthCode? given | throw (.corrupt .codeLengthsSet)
  let ⟨lengths, rest, h₃⟩ ← takeLengths code (literalCount + distanceCount) none rest
  if lengths.getD 256 0 = 0 then throw (.corrupt .missingEnd)
  let some literals := Code.ofLengths? false (lengths.take literalCount)
    | throw (.corrupt .literalsSet)
  let some distances := Code.ofLengths? false (lengths.drop literalCount)
    | throw (.corrupt .distancesSet)
  return ⟨⟨literals, distances⟩, rest, by omega⟩

/-! ## Contents of a block -/

/-- Lengths by code: the least one and the number of bits that are added to it. -/
def lengthBases : List (Nat × Nat) :=
  [(3, 0), (4, 0), (5, 0), (6, 0), (7, 0), (8, 0), (9, 0), (10, 0), (11, 1), (13, 1), (15, 1),
   (17, 1), (19, 2), (23, 2), (27, 2), (31, 2), (35, 3), (43, 3), (51, 3), (59, 3), (67, 4),
   (83, 4), (99, 4), (115, 4), (131, 5), (163, 5), (195, 5), (227, 5), (258, 0)]

/-- Distances by code: the least one and the number of bits that are added to it. -/
def distanceBases : List (Nat × Nat) :=
  [(1, 0), (2, 0), (3, 0), (4, 0), (5, 1), (7, 1), (9, 2), (13, 2), (17, 3), (25, 3), (33, 4),
   (49, 4), (65, 5), (97, 5), (129, 6), (193, 6), (257, 7), (385, 7), (513, 8), (769, 8),
   (1025, 9), (1537, 9), (2049, 10), (3073, 10), (4097, 11), (6145, 11), (8193, 12),
   (12289, 12), (16385, 13), (24577, 13)]

/-- One step through the contents of a coded block. -/
inductive Item (bits : Bits) where
  /-- A byte. -/
  | literal (byte : UInt8) (rest : Bits) (shorter : rest.length < bits.length)
  /-- A reference. -/
  | reference (length distance : Nat) (rest : Bits) (shorter : rest.length < bits.length)
  /-- The end of the block. -/
  | stop (rest : Bits) (shorter : rest.length < bits.length)

/-- Reads a base value and the bits that are added to it. -/
def takeExtended (bases : List (Nat × Nat)) (defect : Defect) (n : Nat) (bits : Bits) :
    Except Stop (Taken Nat bits) :=
  match bases[n]? with
  | none => .error (.corrupt defect)
  | some (base, extra) =>
    match takeOrStop extra bits with
    | .error e => .error e
    | .ok ⟨more, rest, h⟩ => .ok ⟨base + more, rest, h⟩

/-- Reads a byte, a reference or the end of the block. -/
def takeItem (codes : Codes) (bits : Bits) : Except Stop (Item bits) :=
  match codes.literals.read bits with
  | .exhausted => .error .exhausted
  | .unused => .error (.corrupt .literalCode)
  | .symbol n rest h₁ =>
    if n < 256 then .ok (.literal (UInt8.ofNat n) rest h₁)
    else if n = 256 then .ok (.stop rest h₁)
    else
      match takeExtended lengthBases .literalCode (n - 257) rest with
      | .error e => .error e
      | .ok ⟨length, rest, h₂⟩ =>
        match codes.distances.read rest with
        | .exhausted => .error .exhausted
        | .unused => .error (.corrupt .distanceCode)
        | .symbol m rest h₃ =>
          match takeExtended distanceBases .distanceCode m rest with
          | .error e => .error e
          | .ok ⟨distance, rest, h₄⟩ => .ok (.reference length distance rest (by omega))

/-- How far a block, or the whole stream, has come, from a place with at most `limit` bits. -/
inductive Progress (limit : Nat) where
  /-- It is complete; these bits follow it. -/
  | complete (out : Array UInt8) (rest : Bits) (notLonger : rest.length ≤ limit)
  /-- It is cut short behind this output. -/
  | cutShort (out : Array UInt8)
  /-- It is wrong. -/
  | corrupt (d : Defect)

/-- Goes through the contents of a coded block. -/
def inflateItems (codes : Codes) {limit : Nat} (bits : Bits) (h : bits.length ≤ limit)
    (out : Array UInt8) : Progress limit :=
  match takeItem codes bits with
  | .error .exhausted => .cutShort out
  | .error (.corrupt d) => .corrupt d
  | .ok (.stop rest h₁) => .complete out rest (by omega)
  | .ok (.literal byte rest h₁) => inflateItems codes rest (by omega) (out.push byte)
  | .ok (.reference length distance rest h₁) =>
    if out.size < distance then .corrupt .distanceTooFar
    else inflateItems codes rest (by omega) (repeatBack distance length out)
termination_by bits.length

/-- Copies `n` whole bytes. -/
def copyBytes {limit : Nat} : (n : Nat) → (bits : Bits) → bits.length ≤ limit → Array UInt8 →
    Progress limit
  | 0, bits, h, out => .complete out bits h
  | n + 1, bits, h, out =>
    match takeNat 8 bits with
    | none => .cutShort out
    | some ⟨value, rest, h₁⟩ =>
      copyBytes n rest (Nat.le_trans h₁ h) (out.push (UInt8.ofNat value))

/-- Copies a stored block: its length, the complement of that, and as many bytes. -/
def inflateStored (bits : Bits) (out : Array UInt8) : Progress bits.length :=
  match takeNat 32 (alignToByte bits) with
  | none => .cutShort out
  | some ⟨lengths, rest, h⟩ =>
    let length := lengths % 65536
    if length + lengths / 65536 ≠ 65535 then .corrupt .storedLengths
    else copyBytes length rest (Nat.le_trans h (length_alignToByte_le bits)) out

/-- Goes through the contents of a block of the given kind. -/
def inflateBlock (kind : Nat) (bits : Bits) (out : Array UInt8) : Progress bits.length :=
  if kind = 0 then inflateStored bits out
  else if kind = 1 then inflateItems fixedCodes bits (Nat.le_refl _) out
  else if kind = 2 then
    match takeCodes bits with
    | .error .exhausted => .cutShort out
    | .error (.corrupt d) => .corrupt d
    | .ok ⟨codes, rest, h⟩ => inflateItems codes rest h out
  else .corrupt .blockType

/-- Goes through blocks up to the last one. -/
def inflateBlocks {limit : Nat} (bits : Bits) (h : bits.length ≤ limit) (out : Array UInt8) :
    Progress limit :=
  match bits with
  | last :: low :: high :: bits =>
    have shorter : bits.length + 3 ≤ limit := h
    match inflateBlock (low.toNat + 2 * high.toNat) bits out with
    | .corrupt d => .corrupt d
    | .cutShort out => .cutShort out
    | .complete out rest h₁ =>
      if last then .complete out rest (by omega)
      else inflateBlocks rest (by omega) out
  | _ => .cutShort out
termination_by bits.length
decreasing_by simp; omega

/-! ## Whole streams -/

/-- What comes of decompressing a stream. -/
inductive Inflated where
  /-- Its content, and the bytes behind the stream. -/
  | complete (content : Bytes) (rest : Bytes)
  /-- The content up to where the stream is cut short. -/
  | cutShort (content : Bytes)
  /-- Nothing, since the stream is wrong. -/
  | corrupt (d : Defect)
deriving DecidableEq, Repr

/-- Decompresses a stream without any wrapping. -/
def inflate (bytes : Bytes) : Inflated :=
  match inflateBlocks (bitsOf bytes) (Nat.le_refl _) #[] with
  | .complete out rest _ => .complete out.toList (bytes.drop (bytes.length - rest.length / 8))
  | .cutShort out => .cutShort out.toList
  | .corrupt d => .corrupt d

end LogSearch.Deflate
