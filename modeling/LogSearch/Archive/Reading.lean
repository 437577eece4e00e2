/-
The walk through a tar archive.

From one header the walk goes on behind the content, filled up to a whole
number of blocks, where the next header is. It ends at a block of zeros, where
fewer than two blocks are left, or at a header whose size cannot be read, since
then the next one cannot be found. Of the entries only named regular files are
kept. One whose content is cut off is left out with a warning.

The step to the next header rounds the stated size up, and a negative size
leads back. A size of -512 leads back to the very header that states it, and
then the walk goes round for ever. There are only so many places where a header
can lie, so a walk that takes more steps than that has come to a place twice,
and an endless one is recognised by that.
-/
import LogSearch.Archive.Header

set_option autoImplicit false

namespace LogSearch.Archive

/-- A regular file in an archive. -/
structure Entry where
  /-- The name. -/
  name : String
  /-- The stated size. -/
  size : Int
  /-- The content. -/
  data : Bytes
deriving DecidableEq, Repr

/-- Why something in an archive was left out. -/
inductive Fault where
  /-- The size of the entry cannot be read, which ends the walk. -/
  | unreadableSize
  /-- The content is cut off after this many of its bytes. -/
  | truncated (declared : Int) (available : Nat)
deriving DecidableEq, Repr

/-- A report of something left out. -/
structure Warning where
  /-- What was wrong. -/
  fault : Fault
  /-- The entry's name. -/
  name : String
  /-- Where in the archive it was: at the header, or at the content that is cut off. -/
  offset : Int
deriving DecidableEq, Repr

/-- The text of a report. -/
def Warning.message (w : Warning) : String :=
  match w.fault with
  | .unreadableSize => s!"unparsable size field for '{w.name}', aborting archive scan"
  | .truncated declared available =>
    s!"truncated content for '{w.name}' ({declared} bytes declared, {available} available)"

/-- What the walk comes across. -/
inductive Finding where
  /-- A regular file. -/
  | entry (e : Entry)
  /-- Something that has to be left out. -/
  | warning (w : Warning)
deriving DecidableEq, Repr

/-- A place in the archive as an index; a negative place counts back from the end. -/
def indexOf (length : Nat) (place : Int) : Nat :=
  if place < 0 then (place + length).toNat else min place.toNat length

/-- The bytes between two places. -/
def between (archive : Bytes) (start stop : Int) : Bytes :=
  let first := indexOf archive.length start
  (archive.drop first).take (indexOf archive.length stop - first)

/-- The least multiple of the block size that is not below a size. -/
def paddedSize (size : Int) : Int :=
  -((-size).fdiv blockSize) * blockSize

/-- What a header leads to. -/
inductive Step where
  /-- The archive ends here. -/
  | stop
  /-- The walk cannot go on. -/
  | abort (w : Warning)
  /-- The walk goes on at another place, with what was found on the way if anything was. -/
  | next (offset : Int) (found : Option Finding)

/-- Looks at the place `offset`. -/
def step (archive : Bytes) (offset : Int) : Step :=
  if archive.length - offset < 2 * blockSize then .stop
  else
    let block := between archive offset (offset + blockSize)
    if block.all (· = 0) then .stop
    else
      let header := Header.ofBlock block
      match header.size with
      | none => .abort ⟨.unreadableSize, header.name, offset⟩
      | some size =>
        let content := offset + blockSize
        .next (content + paddedSize size) <|
          if !header.isRegular || header.name.isEmpty then none
          else if archive.length < content + size then
            some (.warning ⟨.truncated size (archive.length - content).toNat, header.name, content⟩)
          else some (.entry ⟨header.name, size, between archive content (content + size)⟩)

/-- What a walk of at most `steps` steps from the place `offset` comes across, or `none` if it has
not ended by then. -/
def walk (archive : Bytes) : Nat → Int → Option (List Finding)
  | 0, _ => none
  | steps + 1, offset =>
    match step archive offset with
    | .stop => some []
    | .abort w => some [.warning w]
    | .next offset found => (walk archive steps offset).map (found.toList ++ ·)

/-- The entries and the warnings of an archive. -/
structure Reading where
  /-- The regular files, in order. -/
  entries : List Entry
  /-- The warnings, in order. -/
  warnings : List Warning
deriving DecidableEq, Repr

/-- Sorts out what a walk came across. -/
def Reading.ofFindings (findings : List Finding) : Reading where
  entries := findings.filterMap fun
    | .entry e => some e
    | .warning _ => none
  warnings := findings.filterMap fun
    | .warning w => some w
    | .entry _ => none

/-- A number of steps that only an endless walk exceeds. A header has a byte in the archive and at
least two blocks before the end, or else counts back from the end, so there are fewer places for
one than this. -/
def stepLimit (archive : Bytes) : Nat :=
  2 * archive.length + 2 * blockSize

/-- Reads an archive; `none` if the walk through it never ends. -/
def read? (archive : Bytes) : Option Reading :=
  (walk archive (stepLimit archive) 0).map Reading.ofFindings

end LogSearch.Archive
