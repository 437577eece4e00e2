/-
The directory of a ZIP file.

A ZIP file is read from its end. The end record says how long the directory is
and where it starts. Where it is found says the same once more, since the
directory lies right in front of it. If the two disagree, the file has something
in front of it, and all places shift by the difference.

The end record may have a comment behind it, so it is looked for backwards. Large
files have a second end record with wider numbers, and numbers of an entry that
are too large for their place are found in an extra field.
-/
import LogSearch.Bytes
import LogSearch.Zip.Name

set_option autoImplicit false

namespace LogSearch.Zip

/-! ## The end of the file -/

/-- The last place in some bytes where a mark stands. -/
def lastPlace? (mark : Bytes) : Bytes → Option Nat
  | [] => none
  | b :: bytes =>
    match lastPlace? mark bytes with
    | some place => some (place + 1)
    | none => if mark.isPrefixOf (b :: bytes) then some 0 else none

/-- The number in a record from `offset` on, `width` bytes wide. -/
def numberAt (bytes : Bytes) (offset width : Nat) : Nat :=
  littleEndian (sliceOf bytes offset (offset + width))

/-- The length of the end record. -/
def endLength : Nat := 22

/-- The mark of the end record. -/
def endMark : Bytes := [0x50, 0x4B, 5, 6]

/-- The place of the end record: at the very end without a comment, or else as far back as the
longest comment allows. -/
def endPlace? (file : Bytes) : Option Nat :=
  let last := file.drop (file.length - endLength)
  if last.length = endLength ∧ endMark.isPrefixOf last ∧ last.drop 20 = [0, 0] then
    some (file.length - endLength)
  else
    let first := file.length - (65536 + endLength)
    let tail := file.drop first
    match lastPlace? endMark tail with
    | none => none
    | some place => if tail.length < place + endLength then none else some (first + place)

/-- Where a directory is. -/
structure Extent where
  /-- The place in the file. -/
  start : Nat
  /-- The length. -/
  length : Nat
  /-- What has to be added to the places that the file states. -/
  shift : Int
deriving DecidableEq, Repr

/-- The end record with wide numbers, if there is one in front of the end record at `place`. A
locator between the two says that there is. -/
def wideEnd? (file : Bytes) (place : Nat) : Except Failure (Option Bytes) :=
  let locator := sliceOf file (place - 20) (place - 20 + 20)
  if locator.length < 20 ∨ ¬[0x50, 0x4B, 6, 7].isPrefixOf locator then .ok none
  else if numberAt locator 4 4 ≠ 0 ∨ 1 < numberAt locator 16 4 then
    .error (.defect .severalVolumes)
  else
    let record := sliceOf file (place - 76) (place - 76 + 56)
    if record.length < 56 ∨ ¬[0x50, 0x4B, 6, 6].isPrefixOf record then .ok none
    else .ok (some record)

/-- Finds the directory. -/
def findDirectory (file : Bytes) : Except Failure Extent := do
  match endPlace? file with
  | none => throw (.defect .notZip)
  | some place =>
    let record := sliceOf file place (place + endLength)
    let (stop, length, offset) ← match ← wideEnd? file place with
      | none => pure ((place : Int), numberAt record 12 4, numberAt record 16 4)
      | some wide => pure ((place : Int) - 76, numberAt wide 40 8, numberAt wide 48 8)
    if stop < length then throw (.defect .directoryOffset)
    return ⟨(stop - length).toNat, length, stop - length - offset⟩

/-! ## Entries -/

/-- An entry of the directory. -/
structure Entry where
  /-- The name as it is written. -/
  name : String
  /-- The flags. -/
  flags : Nat
  /-- The number of the way in which the content is compressed. -/
  method : Nat
  /-- The attributes of the file. -/
  attributes : Nat
  /-- The checksum of the content. -/
  checksum : Nat
  /-- The length of the compressed content. -/
  compressedSize : Nat
  /-- The length of the content. -/
  size : Nat
  /-- The place of the header. -/
  offset : Int
deriving DecidableEq, Repr

/-- Takes a wide number off an extra field if the number in its place says that it has moved. -/
def moved (which : WideNumber) (isMoved : Bool) (number : Nat) (extra : Bytes) :
    Except Failure (Nat × Bytes) :=
  if isMoved then
    match takeNumber? 8 extra with
    | some ⟨n, rest, _⟩ => .ok (n, rest)
    | none => .error (.defect (.wideNumber which))
  else .ok (number, extra)

/-- The numbers of an entry that may be wide. -/
structure WideNumbers where
  /-- The length of the content. -/
  size : Nat
  /-- The length of the compressed content. -/
  compressedSize : Nat
  /-- The place of the header. -/
  offset : Nat

/-- Looks up numbers in the extra field for them. -/
def WideNumbers.update (n : WideNumbers) (extra : Bytes) : Except Failure WideNumbers := do
  let (size, extra) ←
    moved .size (n.size = 0xFFFFFFFF || n.size = 0xFFFFFFFFFFFFFFFF) n.size extra
  let (compressedSize, extra) ←
    moved .compressedSize (n.compressedSize = 0xFFFFFFFF) n.compressedSize extra
  let (offset, _) ← moved .offset (n.offset = 0xFFFFFFFF) n.offset extra
  return ⟨size, compressedSize, offset⟩

/-- Goes through the extra fields of an entry. -/
def WideNumbers.ofExtra (n : WideNumbers) (extra : Bytes) : Except Failure WideNumbers :=
  match _h : takeNumber? 4 extra with
  | none => .ok n
  | some ⟨start, rest, _⟩ =>
    let kind := start % 65536
    let size := start / 65536
    if rest.length < size then .error (.defect (.extraField kind size))
    else
      match if kind = 1 then n.update (rest.take size) else .ok n with
      | .error e => .error e
      | .ok n => n.ofExtra (rest.drop size)
termination_by extra.length
decreasing_by
  have := length_of_takeNumber? (by assumption : takeNumber? 4 extra = _)
  simp only [List.length_drop] at *
  omega

/-- The newest kind of ZIP file that is read, in tenths. -/
def newestVersion : Nat := 63

/-- The mark of a directory entry. -/
def entryMark : Bytes := [0x50, 0x4B, 1, 2]

/-- The length of an entry without its name, extra fields and comment. -/
def entryLength : Nat := 46

/-- Reads the entry at the front of a directory, whose places are to be shifted. -/
def readEntry (shift : Int) (directory : Bytes) : Except Failure Entry := do
  let start := directory.take entryLength
  if start.length < entryLength then throw (.defect .directoryTruncated)
  if ¬entryMark.isPrefixOf start then throw (.defect .directoryMark)
  let flags := numberAt start 8 2
  let rest := directory.drop entryLength
  let nameLength := numberAt start 28 2
  let name ← readName flags (rest.take nameLength)
  let version := numberAt start 6 1
  if newestVersion < version then throw (.refusal (.unsupported (.version version)))
  let extra := (rest.drop nameLength).take (numberAt start 30 2)
  let numbers ← WideNumbers.ofExtra ⟨numberAt start 24 4, numberAt start 20 4, numberAt start 42 4⟩
    extra
  return {
    name := name
    flags := flags
    method := numberAt start 10 2
    attributes := numberAt start 38 4
    checksum := numberAt start 16 4
    compressedSize := numbers.compressedSize
    size := numbers.size
    offset := numbers.offset + shift }

/-- The length of the entry at the front of a directory. -/
def lengthOfEntry (directory : Bytes) : Nat :=
  entryLength + numberAt directory 28 2 + numberAt directory 30 2 + numberAt directory 32 2

/-- Reads the entries of a directory. -/
def readEntries (shift : Int) (directory : Bytes) : Except Failure (List Entry) :=
  match directory with
  | [] => .ok []
  | b :: bytes =>
    match readEntry shift (b :: bytes) with
    | .error e => .error e
    | .ok entry =>
      match readEntries shift ((b :: bytes).drop (lengthOfEntry (b :: bytes))) with
      | .error e => .error e
      | .ok entries => .ok (entry :: entries)
termination_by directory.length
decreasing_by
  simp only [lengthOfEntry, entryLength, List.length_drop, List.length_cons]
  omega

end LogSearch.Zip
