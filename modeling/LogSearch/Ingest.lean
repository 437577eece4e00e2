/-
Loading files.

A file is a bundle if its name says so, and what is fetched from a server always
is one, whatever it is called. Of a bundle only the entries that look like logs
are taken. An entry that cannot be read or has no time in it is left out with a
warning. A file that yields nothing to search is kept with the reason.

Two things stop the loading itself: a payload that uses what is not read here,
and a bundle without an end.
-/
import LogSearch.Environment
import LogSearch.Payload
import LogSearch.Source

set_option autoImplicit false

namespace LogSearch

namespace Ingest

/-- Endings of bundles that are compressed with Zstandard. -/
def zstdBundleSuffixes : List String := [".tar.zst", ".tar.zstd", ".tzst"]

/-- Endings of bundles that are compressed with gzip. -/
def gzipBundleSuffixes : List String := [".tar.gz", ".tgz"]

/-- Whether a name is that of a compressed bundle. -/
def isCompressedBundle (name : String) : Bool :=
  Text.endsInAny (Text.lower name) (zstdBundleSuffixes ++ gzipBundleSuffixes)

/-- Whether a name is that of a bundle. -/
def isBundleName (name : String) : Bool :=
  isCompressedBundle name || Text.endsIn (Text.lower name) ".tar"

/-- Where a file comes from. -/
inductive Origin where
  /-- A user has given it. -/
  | user
  /-- A log server has sent it. -/
  | server
deriving DecidableEq, Repr

/-- Whether an entry of a bundle is taken for a log. A user's bundle may hold anything, so the name
has to mention logs. -/
def isLogEntry (origin : Origin) (name : String) : Bool :=
  match origin with
  | .user =>
    Text.occursIn "log".toList (Text.lowerChars name.toList) &&
      Text.endsInAny name [".gz", ".log", ".zst"]
  | .server => Text.endsInAny name [".gz", ".log"]

/-- Why loading does not come to an end with a source. -/
inductive Abort where
  /-- A payload uses what is not read here. -/
  | refused (r : Zip.Refusal)
  /-- A bundle leads round in circles. -/
  | endlessBundle
deriving DecidableEq, Repr

/-- The text of the report. -/
def Abort.message : Abort → String
  | refused r => r.message
  | endlessBundle => "The archive has no end"

/-- The report of a log without any time in it. -/
def noTimestamp (name : String) : String :=
  let shown := if name.isEmpty then "content" else name
  s!"No valid timestamp found in {shown}"

/-- The range of a text, or why there is none. -/
def rangeOfText (env : Environment) (window : Int) (name text : String) :
    Except String TimeRange :=
  if text.isEmpty then .error s!"File {name} is empty after decoding"
  else
    let fallback := Timestamp.fallbackYear env.currentYear (some name) none
    match TimeRange.ofText fallback window text with
    | some range => .ok range
    | none => .error (noTimestamp name)

/-- The range of a log, or why there is none. -/
def rangeOfLog (env : Environment) (window : Int) (name : String) (data : Bytes) :
    Except Abort (Except String TimeRange) :=
  match Payload.decode env.hasZstd name data with
  | .error (.refusal r) => .error (.refused r)
  | .error (.failure f) => .ok (.error f.message)
  | .ok text => .ok (rangeOfText env window name text)

/-- What comes of the entries of a bundle: the logs in it and warnings about others. -/
def takeLogs (env : Environment) (window : Int) :
    List Archive.Entry → Except Abort (List SubFile × List String)
  | [] => .ok ([], [])
  | entry :: entries => do
    let range ← rangeOfLog env window entry.name entry.data
    let (subFiles, warnings) ← takeLogs env window entries
    match range with
    | .ok range => return (⟨entry, range⟩ :: subFiles, warnings)
    | .error reason => return (subFiles, s!"{entry.name}: {reason}" :: warnings)

/-- The report of a bundle without any log in it. -/
def noLog (name : String) : String :=
  s!"Archive {name} contains no log with a recognizable timestamp"

/-- Loads a bundle. Warnings about entries come first, then those about the bundle itself. -/
def ofBundle (env : Environment) (window : Int) (origin : Origin) (name : String) (size : Nat)
    (bundle : Bytes) : Except Abort Source :=
  match Archive.read? bundle with
  | none => .error .endlessBundle
  | some reading => do
    let (subFiles, warnings) ← takeLogs env window <|
      reading.entries.filter fun entry => isLogEntry origin entry.name
    return {
      name, size
      contents := match TimeRange.merge (subFiles.map (·.range)) with
        | some range => .bundle subFiles range
        | none => .unusable true (noLog name)
      warnings := warnings ++ reading.warnings.map (·.message) }

/-- Loads a log. -/
def ofLog (env : Environment) (window : Int) (name : String) (data : Bytes) :
    Except Abort Source := do
  return {
    name, size := data.length
    contents := match ← rangeOfLog env window name data with
      | .ok range => .log data range
      | .error reason => .unusable false reason
    warnings := [] }

/-- Loads a file. -/
def ofFile (env : Environment) (window : Int) (origin : Origin) (name : String) (data : Bytes) :
    Except Abort Source :=
  if isCompressedBundle name then
    match Payload.decompress env.hasZstd name data with
    | .ok bundle => ofBundle env window origin name data.length bundle
    | .error (.refusal r) => .error (.refused r)
    | .error (.failure f) => .ok ⟨name, data.length, .unusable false f.message, []⟩
  else if origin = .server ∨ isBundleName name then
    ofBundle env window origin name data.length data
  else ofLog env window name data

end Ingest

end LogSearch
