/-
Frames.

A Zstandard file is a row of frames. A frame has a header, blocks up to one that
is marked as the last, and a checksum if the header says so. Frames of another
kind are there to be skipped.

A frame is decoded in one of two ways. One that is all there and announces how
long its content is can be decoded at one go, into just that room. Otherwise it
is decoded block by block as it comes in, and then no block may be longer than
the header allows; a frame that is cut short gives what has come in. The two
ways agree on every sound frame.
-/
import LogSearch.Zstd.Hash
import LogSearch.Zstd.Sequences

set_option autoImplicit false

namespace LogSearch.Zstd

/-! ## Headers -/

/-- What a header says. -/
structure Header where
  /-- How long the content is, if that is said. -/
  contentSize : Option Nat
  /-- How far back repetitions reach. -/
  window : Nat
  /-- The number of a dictionary, or 0. -/
  dictionary : Nat
  /-- Whether a checksum follows the blocks. -/
  hasChecksum : Bool
deriving DecidableEq, Repr

/-- The greatest size of a block. -/
def Header.blockLimit (h : Header) : Nat := min h.window (Nat.pow 2 17)

/-- What a file starts with. -/
inductive Start where
  /-- A frame with its header, and what is behind that. -/
  | frame (h : Header) (rest : Bytes)
  /-- A frame of `size` bytes that is to be skipped, and what is behind its header. -/
  | skippable (size : Nat) (rest : Bytes)

/-- Why there is no start of a frame. -/
inductive NoStart where
  /-- The header is cut short. -/
  | cutShort
  /-- The header is wrong. -/
  | defect (d : Defect)

/-- The mark of a frame. -/
def frameMark : Bytes := [0x28, 0xB5, 0x2F, 0xFD]

/-- Whether some bytes, as far as there are four, can be the mark of a frame to be skipped. -/
def isSkippableMark (bytes : Bytes) : Bool :=
  match bytes.take 4 with
  | [] => true
  | b :: rest => b.toNat / 16 = 5 && rest.isPrefixOf [0x2A, 0x4D, 0x18]

/-- The widths of the fields for the dictionary and for the length of the content. -/
def fieldWidths (descriptor : Nat) : Nat × Nat :=
  ([0, 1, 2, 4].getD (descriptor % 4) 0,
    [if descriptor.testBit 5 then 1 else 0, 2, 4, 8].getD (descriptor / 64) 0)

/-- The window that a byte stands for. -/
def windowOf (b : Nat) : Nat := Nat.pow 2 (b / 8 + 10) + Nat.pow 2 (b / 8 + 7) * (b % 8)

/-- Gives what was read, or says that the header is cut short. -/
def orCutShort {α : Type} : Option α → Except NoStart α
  | some a => .ok a
  | none => .error .cutShort

/-- Reads the header of a frame behind its mark. -/
def readHeader (bytes : Bytes) : Except NoStart Start := do
  let ⟨descriptor, rest, _⟩ ← orCutShort (takeNumber? 1 bytes)
  let isOneSegment := descriptor.testBit 5
  let (dictionaryWidth, sizeWidth) := fieldWidths descriptor
  let ⟨window, rest, _⟩ ← orCutShort (takeNumber? (if isOneSegment then 0 else 1) rest)
  let ⟨dictionary, rest, _⟩ ← orCutShort (takeNumber? dictionaryWidth rest)
  let ⟨size, rest, _⟩ ← orCutShort (takeNumber? sizeWidth rest)
  if descriptor.testBit 3 then throw (.defect .parameter)
  if ¬isOneSegment ∧ 31 < window / 8 + 10 then throw (.defect .window)
  let size := if sizeWidth = 2 then size + 256 else size
  return .frame {
      contentSize := if sizeWidth = 0 then none else some size
      window := if isOneSegment then size else windowOf window
      dictionary := dictionary
      hasChecksum := descriptor.testBit 2 } rest

/-- Reads the start of a file. A mark that is cut short is refused as soon as it goes wrong, but the
header behind a mark is only judged when it is complete. -/
def readStart (bytes : Bytes) : Except NoStart Start :=
  let mark := bytes.take 4
  if ¬mark.isPrefixOf frameMark ∧ ¬isSkippableMark bytes then .error (.defect .mark)
  else if mark.length < 4 then .error .cutShort
  else if mark = frameMark then readHeader (bytes.drop 4)
  else
    match takeNumber? 4 (bytes.drop 4) with
    | none => .error .cutShort
    | some ⟨size, rest, _⟩ => .ok (.skippable size rest)

/-! ## Blocks -/

/-- What the three bytes in front of a block say. -/
structure BlockHeader where
  /-- Whether it is the last block. -/
  isLast : Bool
  /-- The kind of the block. -/
  kind : Nat
  /-- The length of the block, or how often its one byte is repeated. -/
  size : Nat

/-- Sorts out the bits in front of a block. -/
def BlockHeader.ofNat (n : Nat) : BlockHeader := ⟨n % 2 = 1, n / 2 % 4, n / 8⟩

/-- How many bytes a block has in the file. -/
def BlockHeader.stored (b : BlockHeader) : Nat := if b.kind = 1 then 1 else b.size

/-- Whether the blocks of a frame and its checksum are all there. -/
def isWhole (hasChecksum : Bool) (bytes : Bytes) : Bool :=
  match _h : takeNumber? 3 bytes with
  | none => false
  | some ⟨n, rest, _⟩ =>
    let b := BlockHeader.ofNat n
    if b.kind = 3 || (rest.take b.stored).length < b.stored then false
    else if b.isLast then !hasChecksum || ((rest.drop b.stored).take 4).length = 4
    else isWhole hasChecksum (rest.drop b.stored)
termination_by bytes.length
decreasing_by
  have := length_of_takeNumber? (by assumption : takeNumber? 3 bytes = _)
  simp only [List.length_drop] at *
  omega

/-- A way of decoding a frame. -/
inductive Way where
  /-- At one go, into room for `room` bytes. -/
  | atOnce (room : Nat)
  /-- Block by block. -/
  | asItComes
deriving DecidableEq, Repr

/-- What limits the next block when `done` bytes have been decoded. -/
def Way.limits (way : Way) (h : Header) (done : Nat) : Limits :=
  match way with
  | .atOnce room => ⟨h.blockLimit, room - done⟩
  | .asItComes => ⟨h.blockLimit, h.blockLimit⟩

/-- The error for a block that is longer than its header allows, or than there is room. -/
def Way.excess (way : Way) : Defect :=
  match way with
  | .atOnce _ => .tooLong
  | .asItComes => .corrupt

/-- A block decoded at one go may be too long in the file; one that comes in piece by piece is
refused before. -/
def Way.checkStored (way : Way) (limits : Limits) (b : BlockHeader) : Except Defect Unit :=
  match way with
  | .atOnce _ => if b.kind = 2 ∧ limits.block < b.stored then .error .sourceSize else .ok ()
  | .asItComes => if limits.block < b.stored then .error .corrupt else .ok ()

/-- Appends the content of a block that is all there. -/
def decodeBlock (way : Way) (limits : Limits) (memory : Memory) (b : BlockHeader) (stored : Bytes)
    (out : Array UInt8) : Except Defect (Array UInt8 × Memory) :=
  if b.kind = 2 then
    match decodeCoded limits memory stored out with
    | .error .tooLong => .error way.excess
    | .error d => .error d
    | .ok result => .ok result
  else if limits.room < b.size then .error way.excess
  else if b.kind = 1 then .ok (out ++ List.replicate b.size (stored.headD 0), memory)
  else .ok (out ++ stored, memory)

/-- What comes of decoding a frame. -/
inductive Decoded where
  /-- The content, and what follows the frame. -/
  | complete (content : Array UInt8) (rest : Bytes)
  /-- The content up to where the frame is cut short. -/
  | cutShort (content : Array UInt8)
  /-- The frame is wrong. -/
  | defect (d : Defect)

/-- Checks the checksum behind the blocks. -/
def finishFrame (h : Header) (bytes : Bytes) (out : Array UInt8) : Decoded :=
  if h.hasChecksum then
    match takeNumber? 4 bytes with
    | none => .cutShort out
    | some ⟨n, rest, _⟩ =>
      if n = (Hash.hash out.toList).toNat % Nat.pow 2 32 then .complete out rest else .defect .checksum
  else .complete out bytes

/-- Whether the content has another length than the header says. -/
def Header.disagrees (h : Header) (out : Array UInt8) : Bool :=
  h.contentSize.any fun n => n ≠ out.size

/-- Decodes blocks up to the last one. An empty block that comes in piece by piece is passed over,
and the length of the content is not checked behind it. -/
def decodeBlocks (way : Way) (h : Header) (memory : Memory) (bytes : Bytes)
    (out : Array UInt8) : Decoded :=
  match _h : takeNumber? 3 bytes with
  | none => .cutShort out
  | some ⟨n, rest, _⟩ =>
    let b := BlockHeader.ofNat n
    let limits := way.limits h out.size
    if b.kind = 3 then .defect .corrupt
    else
      match way.checkStored limits b with
      | .error d => .defect d
      | .ok () =>
        let stored := rest.take b.stored
        if way = .asItComes ∧ b.stored = 0 then
          if b.isLast then finishFrame h rest out
          else decodeBlocks way h memory rest out
        else if stored.length < b.stored then .cutShort (if b.kind = 0 then out ++ stored else out)
        else
          match decodeBlock way limits memory b stored out with
          | .error d => .defect d
          | .ok (out, memory) =>
            if b.isLast then
              if h.disagrees out then .defect .corrupt else finishFrame h (rest.drop b.stored) out
            else decodeBlocks way h memory (rest.drop b.stored) out
termination_by bytes.length
decreasing_by
  all_goals
    have := length_of_takeNumber? (by assumption : takeNumber? 3 bytes = _)
    simp only [List.length_drop] at *
    omega

/-- The largest window that is allowed. -/
def maxWindow : Nat := Nat.pow 2 27 + 1

/-- Decodes a frame behind its header. It is decoded at one go if it fits into `room`. -/
def decodeFrame (room : Nat) (h : Header) (bytes : Bytes) : Decoded :=
  let atOnce := (h.contentSize.filter (· ≤ room)).filter fun _ => isWhole h.hasChecksum bytes
  match atOnce with
  | some size =>
    if h.dictionary ≠ 0 then .defect .dictionary
    else decodeBlocks (.atOnce size) h {} bytes #[]
  | none =>
    if h.dictionary ≠ 0 then .defect .dictionary
    else if maxWindow < h.window then .defect .window
    else decodeBlocks .asItComes h {} bytes #[]

end LogSearch.Zstd
