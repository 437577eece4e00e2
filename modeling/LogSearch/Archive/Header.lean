/-
Headers of a tar archive.

A header is a block of 512 bytes with fields at fixed places. Of these a log
bundle needs the name, the size, the type and, in archives of the POSIX kind,
the leading part of a long name. Checksums are not looked at.

The size is octal text or, with the top bit of its first byte set, a binary
number. The text may be signed, so a size can come out negative; what that
means for the walk through the archive is said there.
-/
import LogSearch.Text.Numeral
import LogSearch.Text.Utf8

set_option autoImplicit false

namespace LogSearch.Archive

/-- The length of a header, and the unit to which contents are filled up. -/
def blockSize : Nat := 512

/-- Some bytes of a block. -/
def fieldOf (block : Bytes) (offset length : Nat) : Bytes :=
  (block.drop offset).take length

/-- The text of a field, which ends at a zero byte if there is one. -/
def fieldText (field : Bytes) : String :=
  Text.decodeUtf8 (field.takeWhile (· ≠ 0))

/-- Whether the byte counts as white space around a size. Zeros do. -/
def isSizeBlank (b : UInt8) : Bool :=
  b = 0 || b = 0x20 || (9 ≤ b && b ≤ 13)

/-- The number that bytes write in base 256. -/
def binaryValue (bytes : Bytes) : Nat :=
  bytes.foldl (fun n b => 256 * n + b.toNat) 0

/-- The size that a size field states, or `none` if it cannot be read. -/
def sizeOf? (field : Bytes) : Option Int :=
  match field with
  | b :: bytes =>
    if 0x80 ≤ b then some (binaryValue ((b &&& 0x7F) :: bytes))
    else
      let text := ((field.dropWhile isSizeBlank).reverse.dropWhile isSizeBlank).reverse
      if text.isEmpty then some 0
      else Text.signed? Text.octal? (text.map fun b => Char.ofNat b.toNat)
  | [] => some 0

/-- What a header says. -/
structure Header where
  /-- The name of the entry, its leading part included. -/
  name : String
  /-- The stated size of the content, if it can be read. -/
  size : Option Int
  /-- Whether the entry is a regular file. -/
  isRegular : Bool
deriving DecidableEq, Repr

/-- The mark of archives whose headers have room for the leading part of a name. -/
def posixMagic : Bytes := [0x75, 0x73, 0x74, 0x61, 0x72, 0]

/-- Reads a header. -/
def Header.ofBlock (block : Bytes) : Header where
  name :=
    let name := fieldText (fieldOf block 0 100)
    let front := if fieldOf block 257 6 = posixMagic then fieldText (fieldOf block 345 155) else ""
    if front.isEmpty then name else front ++ "/" ++ name
  size := sizeOf? (fieldOf block 124 12)
  isRegular := fieldOf block 156 1 = [0x30] || fieldOf block 156 1 = [0]

end LogSearch.Archive
