/-
Gzip members as they are written.

A member is a header, one compressed stream, the checksum of the content and its length. The
header starts with the mark, the way of compressing and the flags; the flags announce which of
the later fields it has. The time, the effort and the kind of machine are never looked at and may
hold anything here.

How a content is compressed is left open as well. A member holds any stream that gives its content
and that ends with its last byte.
-/
import LogSearch.Deflate.Stream

set_option autoImplicit false

namespace LogSearch.Deflate

/-- The lowest `width` bytes of a number, the low byte first. -/
def lowFirst : (width n : Nat) → Bytes
  | 0, _ => []
  | width + 1, n => UInt8.ofNat (n % 256) :: lowFirst width (n / 256)

/-- A field of any bytes whose length two bytes can state. -/
structure ExtraField where
  bytes : Bytes
  isShort : bytes.length < 65536 := by decide

/-- A text that a zero can end. -/
structure ZeroFree where
  bytes : Bytes
  zeroFree : 0 ∉ bytes := by decide

/-- A field of any bytes, behind its length, if there is one. -/
def extraField : Option ExtraField → Bytes
  | none => []
  | some field => lowFirst 2 field.bytes.length ++ field.bytes

/-- A text and the zero that ends it, if there is one. -/
def zeroEnded : Option ZeroFree → Bytes
  | none => []
  | some text => text.bytes ++ [0]

/-- The checksum of a header that starts like this, if it has one. -/
def headerCheck (present : Bool) (start : Bytes) : Bytes :=
  if present then lowFirst 2 (Checksum.crc32 start).toNat else []

/-- The header of a member. -/
structure GzipHeader where
  /-- Whether the content is said to be text. -/
  isText : Bool
  /-- The time, the effort and the kind of machine. -/
  details : Vector UInt8 6
  extra? : Option ExtraField
  name? : Option ZeroFree
  comment? : Option ZeroFree
  hasChecksum : Bool

namespace GzipHeader

/-- The flags of a header. The first says that the content is text. -/
def flags (h : GzipHeader) : Nat :=
  h.isText.toNat + 2 * h.hasChecksum.toNat + 4 * h.extra?.isSome.toNat + 8 * h.name?.isSome.toNat
    + 16 * h.comment?.isSome.toNat

/-- What the checksum of the header is about. -/
def start (h : GzipHeader) : Bytes :=
  [0x1F, 0x8B, 8, UInt8.ofNat h.flags] ++ h.details.toList ++ extraField h.extra?
    ++ zeroEnded h.name? ++ zeroEnded h.comment?

/-- The header. -/
def bytes (h : GzipHeader) : Bytes :=
  h.start ++ headerCheck h.hasChecksum h.start

end GzipHeader

/-- A member of a gzip file. -/
structure GzipMember where
  header : GzipHeader
  content : Bytes
  /-- The compressed stream. -/
  packed : Bytes
  isPacked : inflate packed = .complete content []

/-- The checksum and the length of a content. -/
def contentCheck (content : Bytes) : Bytes :=
  lowFirst 4 (Checksum.crc32 content).toNat ++ lowFirst 4 content.length

/-- The bytes of a member. -/
def GzipMember.bytes (m : GzipMember) : Bytes :=
  m.header.bytes ++ (m.packed ++ contentCheck m.content)

end LogSearch.Deflate
