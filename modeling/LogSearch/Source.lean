/-
Sources: the files that a user has loaded.

A source is a log, a bundle of logs, or unusable. Only the first two are ready
to be searched, and they have a range of time. A bundle keeps the logs that were
taken out of it, each with the range of its own.
-/
import LogSearch.Archive.Reading
import LogSearch.TimeRange

set_option autoImplicit false

namespace LogSearch

/-- A log in a bundle. -/
structure SubFile where
  /-- The entry that holds it. -/
  entry : Archive.Entry
  /-- The time that it spans. -/
  range : TimeRange
deriving DecidableEq

/-- What a loaded file turned out to be. -/
inductive Contents where
  /-- A log, with its bytes as they came. -/
  | log (data : Bytes) (range : TimeRange)
  /-- A bundle of logs. -/
  | bundle (subFiles : List SubFile) (range : TimeRange)
  /-- Nothing that can be searched, for the stated reason; it may still have been a bundle. -/
  | unusable (isBundle : Bool) (reason : String)
deriving DecidableEq

/-- A loaded file. -/
structure Source where
  /-- The name. -/
  name : String
  /-- The length of the file. -/
  size : Nat
  /-- What it turned out to be. -/
  contents : Contents
  /-- What was left out of it. -/
  warnings : List String
deriving DecidableEq

namespace Source

/-- Whether the source can be searched. -/
def isReady (s : Source) : Bool :=
  match s.contents with
  | .unusable _ _ => false
  | _ => true

/-- The word for the state of a source. -/
def status (s : Source) : String :=
  if s.isReady then "ready" else "error"

/-- Whether the source is a bundle. -/
def isBundle (s : Source) : Bool :=
  match s.contents with
  | .log _ _ => false
  | .bundle _ _ => true
  | .unusable isBundle _ => isBundle

/-- The time that the source spans. -/
def range? (s : Source) : Option TimeRange :=
  match s.contents with
  | .log _ range => some range
  | .bundle _ range => some range
  | .unusable _ _ => none

/-- The logs in a bundle. -/
def subFiles (s : Source) : List SubFile :=
  match s.contents with
  | .bundle subFiles _ => subFiles
  | _ => []

/-- Why the source cannot be searched. -/
def error? (s : Source) : Option String :=
  match s.contents with
  | .unusable _ reason => some reason
  | _ => none

/-- The source without the data that it holds, as it is shown when it has been removed. -/
def emptied (s : Source) : Source :=
  match s.contents with
  | .log _ range => { s with contents := .log [] range }
  | .bundle _ range => { s with contents := .bundle [] range }
  | .unusable _ _ => s

end Source

end LogSearch
