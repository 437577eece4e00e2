/-
Payloads: files that may be compressed.

The kind of a payload shows in its name or in its first bytes. Zstandard comes
first, by either; then gzip, zlib and ZIP, whose suffixes are taken for one kind;
then ZIP by its first bytes alone. Anything else is taken as it is.

Under the suffixes of the second kind three readers are tried. The first expects
one compressed stream that makes up the whole file. If that fails a file that
starts like ZIP is read as such, and any other as gzip members in a row. If that
fails too, the report is about the first reader.
-/
import LogSearch.Deflate.Members
import LogSearch.Text.Lowercase
import LogSearch.Text.Match
import LogSearch.Zip.Member
import LogSearch.Zstd.Content

set_option autoImplicit false

namespace LogSearch

/-- Why a payload cannot be decompressed. -/
inductive Payload.Failure where
  /-- Zstandard cannot be read in this environment. -/
  | withoutZstd (name : String)
  /-- A Zstandard file is wrong. -/
  | zstd (name : String) (f : Zstd.Failure)
  /-- A file is neither one compressed stream nor gzip members. -/
  | stream (name : String) (e : Deflate.StreamError)
  /-- A ZIP file is damaged. -/
  | zip (name : String) (d : Zip.Defect)
  /-- All members of a ZIP file are empty. -/
  | emptyZip (name : String)
deriving DecidableEq, Repr

/-- The text of a failure. -/
def Payload.Failure.message : Payload.Failure → String
  | withoutZstd name =>
    s!"Cannot decompress {name}: no zstd decoder is available in this environment"
  | zstd name f => s!"Unable to decompress {name}: {f.message}"
  | stream name e => s!"Unable to decompress {name}: {e.message}"
  | zip name d => s!"Unable to read ZIP container {name}: {d.message}"
  | emptyZip name => s!"No readable text member found in ZIP container {name}"

/-- Why no content comes of a payload: it is at fault, or it uses what is not read here. The second
is not a fault of one file that can be noted and left aside. -/
inductive Payload.Error where
  /-- The payload is at fault. -/
  | failure (f : Payload.Failure)
  /-- The payload uses what is not read here. -/
  | refusal (r : Zip.Refusal)
deriving DecidableEq, Repr

/-- The text of an error. -/
def Payload.Error.message : Payload.Error → String
  | failure f => f.message
  | refusal r => r.message

namespace Payload

/-- The endings of Zstandard files. -/
def zstdSuffixes : List String := [".zst", ".zstd", ".tzst"]

/-- The endings of gzip, zlib and ZIP files. -/
def gzipSuffixes : List String := [".gz", ".gzip", ".tgz", ".zip"]

/-- The content of a ZIP file. -/
def readZip (name : String) (data : Bytes) : Except Error Bytes :=
  match Zip.content data with
  | .ok (some content) => .ok content
  | .ok none => .error (.failure (.emptyZip name))
  | .error (.defect d) => .error (.failure (.zip name d))
  | .error (.refusal r) => .error (.refusal r)

/-- The content of a gzip, zlib or ZIP file. -/
def readGzip (name : String) (data : Bytes) : Except Error Bytes :=
  match Deflate.unwrap data with
  | .ok content => .ok content
  | .error e =>
    if data.take 2 = [0x50, 0x4B] then readZip name data
    else
      match Deflate.unwrapMembers? data with
      | some content => .ok content
      | none => .error (.failure (.stream name e))

/-- The content of a Zstandard file. -/
def readZstd (hasZstd : Bool) (name : String) (data : Bytes) : Except Error Bytes :=
  if hasZstd then
    match Zstd.content data with
    | .ok content => .ok content
    | .error f => .error (.failure (.zstd name f))
  else .error (.failure (.withoutZstd name))

/-- The content of a payload; `hasZstd` says whether Zstandard can be read. -/
def decompress (hasZstd : Bool) (name : String) (data : Bytes) : Except Error Bytes :=
  let lowered := Text.lower name
  if Text.endsInAny lowered zstdSuffixes || data.take 4 = Zstd.frameMark then
    readZstd hasZstd name data
  else if Text.endsInAny lowered gzipSuffixes || Deflate.isGzip data then readGzip name data
  else if data.take 4 = Zip.headerMark then readZip name data
  else .ok data

/-- The text of a payload. -/
def decode (hasZstd : Bool) (name : String) (data : Bytes) : Except Error String :=
  (decompress hasZstd name data).map Text.decode

end Payload

end LogSearch
