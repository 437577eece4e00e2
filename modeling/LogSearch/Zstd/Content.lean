/-
The content of a Zstandard file.

All frames are read one behind the other. A file that is cut short gives what it
has. If something is wrong anywhere, the first frame alone is tried: it may be
sound, with rubbish behind it. That needs to know how long its content is, and
what is reported in the end is why this second try failed.
-/
import LogSearch.Zstd.Frame

set_option autoImplicit false

namespace LogSearch.Zstd

/-- Why there is no content. -/
inductive Failure where
  /-- The file does not start with the header of a frame. -/
  | noHeader
  /-- The first frame does not say how long its content is. -/
  | unknownSize
  /-- The first frame is wrong. -/
  | defect (d : Defect)
  /-- The first frame does not end. -/
  | cutShort
deriving DecidableEq, Repr

/-- The text of a failure. -/
def Failure.message : Failure → String
  | noHeader => "error determining content size from frame header"
  | unknownSize => "could not determine content size in frame header"
  | defect d => s!"decompression error: {d.message}"
  | cutShort => "decompression error: did not decompress full frame"

/-- The room in which content is handed on. -/
def chunk : Nat := Nat.pow 2 20

/-- Decodes at most `limit` frames in a row, or gives `none` if something is wrong. -/
def joinFrames? : (limit : Nat) → Bytes → Array UInt8 → Option (Array UInt8)
  | 0, _, out => some out
  | limit + 1, bytes, out =>
    match readStart bytes with
    | .error .cutShort => some out
    | .error (.defect _) => none
    | .ok (.skippable size rest) => joinFrames? limit (rest.drop size) out
    | .ok (.frame h rest) =>
      match decodeFrame (chunk - out.size % chunk) h rest with
      | .complete content rest => joinFrames? limit rest (out ++ content)
      | .cutShort content => some (out ++ content)
      | .defect _ => none

/-- Decodes the first frame alone. -/
def firstFrame (file : Bytes) : Except Failure Bytes :=
  match readStart file with
  | .error _ => .error .noHeader
  | .ok (.skippable _ _) => .ok []
  | .ok (.frame h rest) =>
    match h.contentSize with
    | none => .error .unknownSize
    | some 0 => .ok []
    | some size =>
      match decodeFrame size h rest with
      | .complete content _ => .ok content.toList
      | .cutShort _ => .error .cutShort
      | .defect d => .error (.defect d)

/-- The content of a file. Each frame takes up at least one byte, so there are no more frames than
the limit allows. -/
def content (file : Bytes) : Except Failure Bytes :=
  match joinFrames? (file.length + 1) file #[] with
  | some out => .ok out.toList
  | none => firstFrame file

end LogSearch.Zstd
