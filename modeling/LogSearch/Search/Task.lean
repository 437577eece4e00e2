/-
Tasks: the logs that a search goes over.

A log is a file that may be compressed, an entry of an archive, or a text that
has been read before. Only when its turn comes is a task resolved to a text, and
if that fails the search goes on with the others.
-/
import LogSearch.Archive.Reading
import LogSearch.Environment
import LogSearch.Payload

set_option autoImplicit false

namespace LogSearch.Search

/-- A log to be searched. -/
inductive Task where
  /-- A text. -/
  | text (source text : String)
  /-- A file. -/
  | file (source : String) (data : Bytes)
  /-- An entry of an archive. -/
  | entry (source : String) (entry : Archive.Entry)
deriving DecidableEq, Repr

namespace Task

/-- The name under which records are reported. -/
def source : Task → String
  | .text source _ => source
  | .file source _ => source
  | .entry source _ => source

/-- The name by which the year of timestamps without one is guessed. -/
def name : Task → String
  | .text source _ => source
  | .file source _ => source
  | .entry _ e => e.name

/-- The text of a task. -/
def resolve (hasZstd : Bool) : Task → Except Payload.Error String
  | .text _ content => .ok content
  | .file source data => Payload.decode hasZstd source data
  | .entry _ e => Payload.decode hasZstd e.name e.data

end Task

end LogSearch.Search
