/-
What can be wrong with a Zstandard file.
-/

set_option autoImplicit false

namespace LogSearch.Zstd

/-- What is wrong with a frame. -/
inductive Defect where
  /-- It does not start with the mark of a frame. -/
  | mark
  /-- Its header uses what is not defined. -/
  | parameter
  /-- It needs too large a window. -/
  | window
  /-- It was compressed with a dictionary. -/
  | dictionary
  /-- A block refers to a code that no block before it has brought. -/
  | missingCode
  /-- Four streams of literals are announced for too few of them. -/
  | literalsHeader
  /-- Something is longer or shorter than it has to be. -/
  | sourceSize
  /-- The content is longer than announced. -/
  | tooLong
  /-- Anything else is wrong inside a block. -/
  | corrupt
  /-- The checksum of the content is wrong. -/
  | checksum
deriving DecidableEq, Repr

/-- The text of a defect. -/
def Defect.message : Defect → String
  | mark => "Unknown frame descriptor"
  | parameter => "Unsupported frame parameter"
  | window => "Frame requires too much memory for decoding"
  | dictionary => "Dictionary mismatch"
  | missingCode => "Dictionary is corrupted"
  | literalsHeader => "Header of Literals' block doesn't respect format specification"
  | sourceSize => "Src size is incorrect"
  | tooLong => "Destination buffer is too small"
  | corrupt => "Data corruption detected"
  | checksum => "Restored data doesn't match checksum"

/-- Gives what was read, or reports a defect. -/
def orDefect {α : Type} (d : Defect) : Option α → Except Defect α
  | some a => .ok a
  | none => .error d

end LogSearch.Zstd
