/-
The members of a ZIP file.

Each member has a header of its own in front of its content, and what the header
says has to agree with the directory. The space of a member ends where the next
header or the directory starts; a content that goes beyond is refused, since
members that share their contents can blow up a small file.

A container of a log is read for its first member that has a content at all.
-/
import LogSearch.Checksum
import LogSearch.Zip.Description
import LogSearch.Zip.Directory

set_option autoImplicit false

namespace LogSearch.Zip

/-- A member: its entry, and where its space ends. -/
structure Member where
  /-- The entry in the directory. -/
  entry : Entry
  /-- The place of the next header, or of the directory. -/
  stop : Int
deriving DecidableEq, Repr

/-- The name of a member, which ends at a zero. -/
def Member.name (m : Member) : String :=
  String.ofList (m.entry.name.toList.takeWhile (· ≠ '\x00'))

/-- Whether a member stands for a directory. -/
def Member.isDirectory (m : Member) : Bool :=
  m.name.toList.getLast? = some '/'

/-- The description of a member. -/
def Member.description (m : Member) : String :=
  Details.text {
    name := m.name
    isDirectory := m.isDirectory
    method := m.entry.method
    attributes := m.entry.attributes
    size := m.entry.size
    compressedSize := m.entry.compressedSize }

/-- Where the space of a header at `offset` ends. Of several headers at one place only the first
has any. -/
def stopOf (directory : Int) (all : List Int) (earlier : List Int) (offset : Int) : Int :=
  if offset ∈ earlier then offset
  else (all.filter (offset < ·)).min?.getD directory

/-- The members of a ZIP file, in the order of the directory. -/
def members (file : Bytes) : Except Failure (List Member) := do
  let extent ← findDirectory file
  let entries ← readEntries extent.shift (sliceOf file extent.start (extent.start + extent.length))
  let offsets := entries.map (·.offset)
  return entries.zipIdx.map fun (entry, i) =>
    ⟨entry, stopOf extent.start offsets (offsets.take i) entry.offset⟩

/-- The mark of a header. -/
def headerMark : Bytes := [0x50, 0x4B, 3, 4]

/-- The length of a header without the name and the extra fields. -/
def headerLength : Nat := 30

/-- The place of a member's content, once its header is found to be right. -/
def Member.contentPlace (file : Bytes) (m : Member) : Except Failure Nat := do
  if m.entry.offset < 0 then throw (.refusal (.offsetBeforeStart m.entry.offset))
  let start := file.drop m.entry.offset.toNat
  let header := start.take headerLength
  if header.length < headerLength then throw (.defect .headerTruncated)
  if ¬headerMark.isPrefixOf header then throw (.defect .headerMark)
  if m.entry.flags.testBit 5 then throw (.refusal (.unsupported .patch))
  if m.entry.flags.testBit 6 then throw (.refusal (.unsupported .strongEncryption))
  let nameLength := numberAt header 26 2
  let written := (start.drop headerLength).take nameLength
  let name ← readName (numberAt header 6 2) written
  if name ≠ m.entry.name then throw (.defect (.nameMismatch m.entry.name written))
  let place := m.entry.offset.toNat + headerLength + nameLength + numberAt header 28 2
  let place := min place file.length
  if m.stop < place + m.entry.compressedSize then throw (.defect (.overlap m.entry.name))
  if m.entry.flags.testBit 0 then throw (.refusal (.encrypted m.description))
  return place

/-- Undoes the compression of a content. A stream that is cut short gives what it has; whether
that is all shows in the checksum. -/
def unpack (method : Nat) (packed : Bytes) : Except Failure Bytes :=
  if method = 0 then .ok packed
  else if method = 8 then
    match Deflate.inflate packed with
    | .complete content _ => .ok content
    | .cutShort content => .ok content
    | .corrupt d => .error (.defect (.content d))
  else .error (.refusal (.unsupported .method))

/-- The content of a member. -/
def Member.read (file : Bytes) (m : Member) : Except Failure Bytes := do
  let place ← m.contentPlace file
  let content ← unpack m.entry.method (sliceOf file place (place + m.entry.compressedSize))
  let content := content.take m.entry.size
  if (Checksum.crc32 content).toNat ≠ m.entry.checksum then throw (.defect (.checksum m.name))
  return content

/-- The content of the first of some members that is no directory and not empty. -/
def firstContent (file : Bytes) : List Member → Except Failure (Option Bytes)
  | [] => .ok none
  | m :: rest =>
    if m.isDirectory then firstContent file rest
    else
      match m.read file with
      | .error e => .error e
      | .ok [] => firstContent file rest
      | .ok content => .ok (some content)

/-- The content that a ZIP file is read for, or `none` if all its members are empty. -/
def content (file : Bytes) : Except Failure (Option Bytes) :=
  match members file with
  | .error e => .error e
  | .ok all => firstContent file all

end LogSearch.Zip
