/-
The workspace: all that is loaded.

It holds the files of the user in the order in which they came, and at most one
bundle from a log server, which a new one replaces. A file of the same name and
length as one that is there is not loaded again.

A search goes over the logs of all sources that are ready. Each log is a task.
-/
import LogSearch.Ingest
import LogSearch.Search.Task

set_option autoImplicit false

namespace LogSearch

/-- All that is loaded. -/
structure Workspace where
  /-- The files of the user. -/
  files : List Source := []
  /-- The bundle from a log server. -/
  remote : Option Source := none
deriving DecidableEq

namespace Workspace

/-- Why a workspace is left as it is. -/
inductive Error where
  /-- A file of this name and length is loaded already. -/
  | duplicate (name : String)
  /-- There is no file of this number. -/
  | noFile (index : Int)
  /-- Loading did not come to an end. -/
  | aborted (a : Ingest.Abort)
deriving DecidableEq, Repr

/-- The text of the report. -/
def Error.message : Error → String
  | duplicate name => s!"File {name} is already loaded"
  | noFile index => s!"No file at index {index}"
  | aborted a => a.message

/-- Whether a file of some name and length is loaded. -/
def isLoaded (w : Workspace) (name : String) (size : Nat) : Bool :=
  w.files.any fun file => file.name = name && file.size = size

/-- Appends a file. -/
def append (w : Workspace) (file : Source) : Workspace :=
  { w with files := w.files ++ [file] }

/-- Loads a file of the user; `window` is the number of lines that are looked at for its range. -/
def add (env : Environment) (window : Int) (w : Workspace) (name : String) (data : Bytes) :
    Except Error (Source × Workspace) :=
  if w.isLoaded name data.length then .error (.duplicate name)
  else
    match Ingest.ofFile env window .user name data with
    | .error a => .error (.aborted a)
    | .ok file => .ok (file, w.append file)

/-- Loads a bundle from a log server in place of the one before. -/
def setRemote (env : Environment) (window : Int) (w : Workspace) (name : String) (data : Bytes) :
    Except Error (Source × Workspace) :=
  match Ingest.ofFile env window .server name data with
  | .error a => .error (.aborted a)
  | .ok bundle => .ok (bundle, { w with remote := some bundle })

/-- Removes the file of some number, counted from 0. -/
def remove (w : Workspace) (index : Int) : Except Error (Source × Workspace) :=
  if index < 0 then .error (.noFile index)
  else
    match w.files[index.toNat]? with
    | none => .error (.noFile index)
    | some file => .ok (file.emptied, { w with files := w.files.eraseIdx index.toNat })

/-- Removes everything. -/
def clear (w : Workspace) : Workspace :=
  { w with files := [], remote := none }

/-- The files that can be searched. -/
def readyFiles (w : Workspace) : List Source :=
  w.files.filter (·.isReady)

/-- All that can be searched, the bundle from a log server last. -/
def readySources (w : Workspace) : List Source :=
  w.readyFiles ++ w.remote.toList.filter (·.isReady)

/-- Whether there is anything to search. -/
def hasSources (w : Workspace) : Bool :=
  !w.readySources.isEmpty

/-- The time that all sources span. -/
def range? (w : Workspace) : Option TimeRange :=
  TimeRange.merge (w.readySources.filterMap (·.range?))

/-- The part of that time that a named window selects. -/
def preset (w : Workspace) (name : String) : Except RangeError (Option TimeRange) :=
  match w.range? with
  | none => .ok none
  | some range => (range.preset name).map some

/-- The tasks of one source. -/
def tasksOf (source : Source) : List Search.Task :=
  match source.contents with
  | .log data _ => [.file source.name data]
  | .bundle subFiles _ => subFiles.map fun subFile => .entry subFile.entry.name subFile.entry
  | .unusable _ _ => []

/-- The tasks of a search over all sources. -/
def tasks (w : Workspace) : List Search.Task :=
  w.readySources.flatMap tasksOf

end Workspace

end LogSearch
