/-
What a command leaves behind.
-/
import LogSearch.Bytes
import LogSearch.Search.Engine
import LogSearch.Text.Quoted
import LogSearch.Workspace

set_option autoImplicit false

namespace LogSearch.Command

/-- Why a file cannot be read: the number of the reason, and the reason in words. -/
structure FileError where
  /-- The number. -/
  code : Nat
  /-- The reason. -/
  reason : String
deriving DecidableEq, Repr

namespace FileError

/-- There is no such file. -/
def notFound : FileError := ⟨2, "No such file or directory"⟩

/-- A part of the path is a file. -/
def notDirectory : FileError := ⟨20, "Not a directory"⟩

/-- It is a directory. -/
def isDirectory : FileError := ⟨21, "Is a directory"⟩

/-- A name in the path is longer than names can be. -/
def nameTooLong : FileError := ⟨36, "File name too long"⟩

/-- The text of the report on a path. -/
def message (e : FileError) (path : String) : String :=
  let shown := Text.quoted path
  s!"[Errno {e.code}] {e.reason}: {shown}"

end FileError

/-- What a command has printed, and its exit code. -/
structure Output where
  /-- The exit code. -/
  exitCode : Nat
  /-- What is printed. -/
  out : String := ""
  /-- The lines that are printed as messages. -/
  messages : List String := []
deriving DecidableEq, Repr

/-- The messages as they are printed. -/
def Output.messageText (o : Output) : String :=
  String.join (o.messages.map (· ++ "\n"))

/-- Why a command breaks off without an exit code of its own. -/
inductive Crash where
  /-- A file is of a kind that is not read here. -/
  | loading (a : Ingest.Abort)
  /-- The search broke off. -/
  | searching (e : Search.EngineError)
deriving DecidableEq, Repr

/-- What is printed when someone interrupts the program. -/
def interrupted : Output := ⟨130, "", ["", "Interrupted by user"]⟩

end LogSearch.Command
