/-
What can be wrong with a ZIP file.

A defect means that the file is damaged or is no ZIP file at all. A refusal is
different: the file may be in order, but it uses something that is not read
here, such as encryption.
-/
import LogSearch.Deflate.Inflate
import LogSearch.Text.Fault

set_option autoImplicit false

namespace LogSearch.Zip

/-- The three numbers that may be moved to an extra field because they are large. -/
inductive WideNumber where
  /-- The length of the content. -/
  | size
  /-- The length of the compressed content. -/
  | compressedSize
  /-- The place of the header. -/
  | offset
deriving DecidableEq, Repr

/-- The name of a number in messages. -/
def WideNumber.name : WideNumber → String
  | size => "File size"
  | compressedSize => "Compress size"
  | offset => "Header offset"

/-- What is damaged. -/
inductive Defect where
  /-- There is no end record. -/
  | notZip
  /-- The file is one of several volumes. -/
  | severalVolumes
  /-- The directory would start before the file. -/
  | directoryOffset
  /-- The directory ends inside an entry. -/
  | directoryTruncated
  /-- A directory entry does not start with its mark. -/
  | directoryMark
  /-- An extra field is longer than there is room. -/
  | extraField (kind size : Nat)
  /-- A number that was moved to the extra field is not there. -/
  | wideNumber (n : WideNumber)
  /-- The header of a member is cut off. -/
  | headerTruncated
  /-- The header of a member does not start with its mark. -/
  | headerMark
  /-- The names of a member in the directory and in its header differ. -/
  | nameMismatch (directory : String) (header : Bytes)
  /-- The content of a member runs into what comes next. -/
  | overlap (name : String)
  /-- The checksum of a content is wrong. -/
  | checksum (name : String)
  /-- A compressed content cannot be decompressed. -/
  | content (d : Deflate.Defect)
deriving DecidableEq, Repr

/-- The kind of an extra field in hexadecimal. -/
def kindDigits (kind : Nat) : String :=
  String.ofList (Text.hexDigits 4 kind)

/-- The text of a defect. -/
def Defect.message : Defect → String
  | notZip => "File is not a zip file"
  | severalVolumes => "zipfiles that span multiple disks are not supported"
  | directoryOffset => "Bad offset for central directory"
  | directoryTruncated => "Truncated central directory"
  | directoryMark => "Bad magic number for central directory"
  | extraField kind size => s!"Corrupt extra field {kindDigits kind} (size={size})"
  | wideNumber n => s!"Corrupt zip64 extra field. {n.name} not found."
  | headerTruncated => "Truncated file header"
  | headerMark => "Bad magic number for file header"
  | nameMismatch directory header =>
    s!"File name in directory {Text.quoted directory} and header {Text.quotedBytes header} differ."
  | overlap name => s!"Overlapped entries: {Text.quoted name} (possible zip bomb)"
  | checksum name => s!"Bad CRC-32 for file {Text.quoted name}"
  | content d => s!"Error -3 while decompressing data: {d.message}"

/-- A way of packing a member that is not known. -/
inductive Unsupported where
  /-- The member is compressed in an unknown way. -/
  | method
  /-- The member is a difference to another file. -/
  | patch
  /-- The member is encrypted together with its entry. -/
  | strongEncryption
  /-- The file needs a newer reader, whose version is given in tenths. -/
  | version (tenths : Nat)
deriving DecidableEq, Repr

/-- The text for a way of packing that is not known. -/
def Unsupported.message : Unsupported → String
  | method => "That compression method is not supported"
  | patch => "compressed patched data (flag bit 5)"
  | strongEncryption => "strong encryption (flag bit 6)"
  | version tenths => s!"zip file version {tenths / 10}.{tenths % 10}"

/-- What is not read here, whether or not the file is in order. -/
inductive Refusal where
  /-- A member is encrypted; its description is given. -/
  | encrypted (member : String)
  /-- A member is packed in a way that is not known. -/
  | unsupported (u : Unsupported)
  /-- A name is not in the encoding that it claims. -/
  | malformedName (f : Text.Fault)
  /-- A header is said to lie before the start of the file. -/
  | offsetBeforeStart (offset : Int)
deriving DecidableEq, Repr

/-- The text of a refusal. -/
def Refusal.message : Refusal → String
  | encrypted member => s!"File {member} is encrypted, password required for extraction"
  | unsupported u => u.message
  | malformedName f => f.message
  | offsetBeforeStart offset => s!"negative seek value {offset}"

/-- Why reading a ZIP file fails. -/
inductive Failure where
  /-- The file is damaged. -/
  | defect (d : Defect)
  /-- The file uses what is not read here. -/
  | refusal (r : Refusal)
deriving DecidableEq, Repr

end LogSearch.Zip
