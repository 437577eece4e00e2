/-
Archives as they are written.

A member of an archive is a header of one block and a content that is filled up with zeros
to whole blocks. Two blocks of zeros end the archive.

Of a header only the name, the size, the type and the leading part of a long name are ever
read. The other fields may hold anything here: permissions and owners, times and the
checksum, the target of a link. Only headers of the POSIX kind have room for the leading
part of a name; in others the mark and that place may hold anything else.
-/
import LogSearch.Archive.Reading

set_option autoImplicit false

namespace LogSearch.Archive

/-- A text that a field of some width can hold: it fits, and no zero ends it early. -/
structure FieldValue (width : Nat) where
  text : String
  zeroFree : Char.ofNat 0 ∉ text.toList := by decide
  fits : (Text.encodeUtf8 text).length ≤ width := by decide

/-- The bytes of a text field, filled up with zeros. -/
def FieldValue.bytes {width : Nat} (f : FieldValue width) : Bytes :=
  Text.encodeUtf8 f.text ++ List.replicate (width - (Text.encodeUtf8 f.text).length) 0

/-- The last `width` octal digits of a number, zeros in front included. -/
def octalDigits : Nat → Nat → Bytes
  | 0, _ => []
  | width + 1, n => octalDigits width (n / 8) ++ [UInt8.ofNat (0x30 + n % 8)]

/-- Eleven octal digits state the sizes below this. -/
def sizeLimit : Nat :=
  Nat.pow 8 11

/-- The field for a size: eleven octal digits and a zero. -/
def sizeField (size : Nat) : Bytes :=
  octalDigits 11 size ++ [0]

/-- The kinds of headers, with what they hold at the mark and at the place for the leading part
of a name. -/
inductive Dialect where
  | posix (front : FieldValue 155)
  | other (mark : Vector UInt8 6) (area : Vector UInt8 155) (isOther : mark.toList ≠ posixMagic)

/-- The mark of a header. -/
def Dialect.mark : Dialect → Bytes
  | posix _ => posixMagic
  | other mark _ _ => mark.toList

/-- The bytes at the place for the leading part of a name. -/
def Dialect.area : Dialect → Bytes
  | posix front => front.bytes
  | other _ area _ => area.toList

/-- The leading part of a name; empty if there is none. -/
def Dialect.front : Dialect → String
  | posix front => front.text
  | other _ _ _ => ""

/-- Whether a type is that of regular files. -/
def isRegularKind (kind : UInt8) : Bool :=
  kind = 0x30 || kind = 0

/-- A member of an archive. Regular files have a name; the size is one that eleven octal digits
can state. -/
structure Member where
  name : FieldValue 100
  dialect : Dialect
  kind : UInt8
  data : Bytes
  isNamed : isRegularKind kind → name.text ≠ ""
  isShort : data.length < sizeLimit
  /-- Permissions and the numbers of the owners. -/
  access : Vector UInt8 24
  /-- The time of the last change and the checksum. -/
  stamps : Vector UInt8 20
  /-- The target of a link. -/
  target : Vector UInt8 100
  /-- The version, the names of the owners and the numbers of the device. -/
  owners : Vector UInt8 82
  /-- The last bytes of the block. -/
  reserve : Vector UInt8 12

namespace Member

/-- Whether the member is a regular file. -/
def isRegular (m : Member) : Bool :=
  isRegularKind m.kind

/-- The header. -/
def header (m : Member) : Bytes :=
  m.name.bytes ++ m.access.toList ++ sizeField m.data.length ++ m.stamps.toList ++ [m.kind]
    ++ m.target.toList ++ m.dialect.mark ++ m.owners.toList ++ m.dialect.area ++ m.reserve.toList

/-- The header and the content, filled up with zeros to whole blocks. -/
def bytes (m : Member) : Bytes :=
  m.header ++ m.data
    ++ List.replicate ((blockSize - m.data.length % blockSize) % blockSize) 0

/-- The name, behind its leading part if there is one. -/
def path (m : Member) : String :=
  if m.dialect.front = "" then m.name.text else m.dialect.front ++ "/" ++ m.name.text

/-- The entry that a reader should find. -/
def entry (m : Member) : Entry :=
  ⟨m.path, m.data.length, m.data⟩

end Member

/-- An archive of some members, with two blocks of zeros at its end. -/
def write (members : List Member) : Bytes :=
  members.flatMap Member.bytes ++ List.replicate (2 * blockSize) 0

end LogSearch.Archive
