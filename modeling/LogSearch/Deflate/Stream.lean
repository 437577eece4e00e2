/-
Streams of the zlib and gzip formats.

Both wrap one DEFLATE stream in a header and a checksum of the content. Which of
the two it is shows in the first two bytes: gzip has a mark of its own, and
anything else has to be a zlib header. The checks are made in the order in which
the fields come, and a field that is cut short is not judged.

What counts here is one whole stream and nothing behind it.
-/
import LogSearch.Bytes
import LogSearch.Checksum
import LogSearch.Deflate.Inflate

set_option autoImplicit false

namespace LogSearch.Deflate

/-- What is wrong with a wrapped stream. -/
inductive StreamError where
  /-- It starts neither as zlib nor as gzip does. -/
  | headerCheck
  /-- The header names another way of compressing. -/
  | method
  /-- References are announced to go farther back than 32768 bytes. -/
  | windowSize
  /-- The header has flags that mean nothing. -/
  | headerFlags
  /-- The checksum of the header is wrong. -/
  | headerChecksum
  /-- The content was compressed against a text that is not given. -/
  | dictionary
  /-- The DEFLATE stream is wrong. -/
  | content (d : Defect)
  /-- The checksum of the content is wrong. -/
  | dataCheck
  /-- The length of the content is wrong. -/
  | lengthCheck
  /-- The stream is cut short. -/
  | unfinished
  /-- Something follows the stream. -/
  | trailingData
deriving DecidableEq, Repr

/-- What is wrong, apart from where the stream ends. -/
def StreamError.detail : StreamError → String
  | headerCheck => "incorrect header check"
  | method => "unknown compression method"
  | windowSize => "invalid window size"
  | headerFlags => "unknown header flags set"
  | headerChecksum => "header crc mismatch"
  | dictionary => ""
  | content d => d.message
  | dataCheck => "incorrect data check"
  | lengthCheck => "incorrect length check"
  | unfinished => ""
  | trailingData => ""

/-- The text of an error. -/
def StreamError.message : StreamError → String
  | dictionary => "Error 2 while decompressing data"
  | unfinished => "compressed stream ended before the end-of-stream marker"
  | trailingData => "trailing data after first compressed stream"
  | e => s!"Error -3 while decompressing data: {e.detail}"

/-- Gives what was read, or says that the stream is cut short. -/
def orUnfinished {α : Type} : Option α → Except StreamError α
  | some a => .ok a
  | none => .error .unfinished

/-! ## Headers -/

/-- The flags of a gzip header that say which fields it has. -/
structure GzipFlags where
  /-- There is a checksum of the header. -/
  headerChecksum : Bool
  /-- There is a field of any bytes with its length in front. -/
  extra : Bool
  /-- There is a file name. -/
  name : Bool
  /-- There is a comment. -/
  comment : Bool

/-- Reads the byte of flags. The lowest bit says that the content is text and makes no difference. -/
def GzipFlags.ofNat (n : Nat) : GzipFlags where
  headerChecksum := n.testBit 1
  extra := n.testBit 2
  name := n.testBit 3
  comment := n.testBit 4

/-- The bytes behind a field that ends with a zero, if the header has it. -/
def skipZeroEnded (present : Bool) (bytes : Bytes) : Except StreamError Bytes :=
  if present then orUnfinished (afterZero? bytes) else .ok bytes

/-- The bytes behind the gzip header of a stream. -/
def skipGzipHeader (stream : Bytes) : Except StreamError Bytes := do
  let ⟨start, rest, _⟩ ← orUnfinished (takeNumber? 4 stream)
  if start / 65536 % 256 ≠ 8 then throw .method
  if 32 ≤ start / 16777216 then throw .headerFlags
  let flags := GzipFlags.ofNat (start / 16777216)
  -- the time and the kind of machine
  let ⟨_, rest, _⟩ ← orUnfinished (takeField? 6 rest)
  let rest ← if flags.extra then do
      let ⟨length, rest, _⟩ ← orUnfinished (takeNumber? 2 rest)
      let ⟨_, rest, _⟩ ← orUnfinished (takeField? length rest)
      pure rest
    else pure rest
  let rest ← skipZeroEnded flags.name rest
  let rest ← skipZeroEnded flags.comment rest
  if flags.headerChecksum then
    let header := stream.take (stream.length - rest.length)
    let ⟨check, rest, _⟩ ← orUnfinished (takeNumber? 2 rest)
    if check ≠ (Checksum.crc32 header).toNat % 65536 then throw .headerChecksum
    return rest
  else return rest

/-- The bytes behind the zlib header of a stream, whose first two bytes are a multiple of 31. -/
def skipZlibHeader (stream : Bytes) : Except StreamError Bytes := do
  let ⟨start, rest, _⟩ ← orUnfinished (takeField? 2 stream)
  let header := bigEndian start
  if header % 31 ≠ 0 then throw .headerCheck
  if header / 256 % 16 ≠ 8 then throw .method
  if 7 < header / 4096 then throw .windowSize
  if header.testBit 5 then
    let _ ← orUnfinished (takeField? 4 rest)
    throw .dictionary
  return rest

/-! ## Streams -/

/-- Whether a file starts with the mark of gzip. -/
def isGzip (bytes : Bytes) : Bool :=
  bytes.take 2 = [0x1F, 0x8B]

/-- The content of a DEFLATE stream and the bytes behind that. -/
def takeContent (bytes : Bytes) : Except StreamError (Bytes × Bytes) :=
  match inflate bytes with
  | .complete content rest => .ok (content, rest)
  | .cutShort _ => .error .unfinished
  | .corrupt d => .error (.content d)

/-- The content of a gzip stream and the bytes behind the stream. -/
def takeGzip (stream : Bytes) : Except StreamError (Bytes × Bytes) := do
  let (content, rest) ← takeContent (← skipGzipHeader stream)
  let ⟨check, rest, _⟩ ← orUnfinished (takeNumber? 4 rest)
  if check ≠ (Checksum.crc32 content).toNat then throw .dataCheck
  let ⟨length, rest, _⟩ ← orUnfinished (takeNumber? 4 rest)
  if length ≠ content.length % Nat.pow 2 32 then throw .lengthCheck
  return (content, rest)

/-- The content of a zlib stream and the bytes behind the stream. -/
def takeZlib (stream : Bytes) : Except StreamError (Bytes × Bytes) := do
  let (content, rest) ← takeContent (← skipZlibHeader stream)
  let ⟨check, rest, _⟩ ← orUnfinished (takeField? 4 rest)
  if bigEndian check ≠ Checksum.adler32 content then throw .dataCheck
  return (content, rest)

/-- The content of a file that is one stream of either format. -/
def unwrap (file : Bytes) : Except StreamError Bytes := do
  let (content, rest) ← if isGzip file then takeGzip file else takeZlib file
  if rest.isEmpty then return content else throw .trailingData

end LogSearch.Deflate
