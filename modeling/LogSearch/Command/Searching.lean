/-
The command that searches files.

The query is read first, then the files, and only then the window: so a wrong
query is reported even if there are no files, and a wrong window only if there is
something to search. A file that cannot be loaded is reported and passed over.
-/
import LogSearch.Calendar.Bound
import LogSearch.Command.Invocation
import LogSearch.Command.Output
import LogSearch.Export
import LogSearch.PathName
import LogSearch.Query.Keywords

set_option autoImplicit false

namespace LogSearch.Command

/-- Why loading stops. -/
inductive LoadStop where
  /-- A value in a file makes no sense. -/
  | badValue (reason : String)
  /-- A file is of a kind that is not read here. -/
  | crash (a : Ingest.Abort)
deriving DecidableEq, Repr

/-- Whether a refusal is about a value in a file. -/
def stopOf (a : Ingest.Abort) : LoadStop :=
  match a with
  | .refused (.malformedName _) => .badValue a.message
  | .refused (.offsetBeforeStart _) => .badValue a.message
  | _ => .crash a

/-- Loads files: the messages, and the workspace, or why loading stops. -/
def load (environment : Environment) (window : Int) (read : String → Except FileError Bytes) :
    List String → Workspace → List String × Except LoadStop Workspace
  | [], w => ([], .ok w)
  | path :: paths, w =>
    let failed (reason : String) : List String × Except LoadStop Workspace :=
      let (messages, result) := load environment window read paths w
      (s!"Could not load {path}: {reason}" :: messages, result)
    if path.contains '\x00' then ([], .error (.badValue "embedded null byte")) else
    match read (PathName.normalized path) with
    | .error e => failed (e.message (PathName.normalized path))
    | .ok data =>
      match w.add environment window (PathName.fileName path) data with
      | .error (.aborted a) => ([], .error (stopOf a))
      | .error e => failed e.message
      | .ok (source, w) =>
        let (messages, result) := load environment window read paths w
        match source.error? with
        | some reason => (s!"Skipping {path}: {reason}" :: messages, result)
        | none => (messages, result)

/-- The message about a value that makes no sense. -/
def invalidArgument (reason : String) : String :=
  s!"Invalid argument: {reason}"

/-- What is printed about a search for so many records at most. -/
def outputOf (maxResults : Int) (results : Search.Results) (summary : Search.Summary) : Output :=
  let text := Export.text results.records.toList
  { exitCode := 0
    out := if text.isEmpty then "" else text ++ "\n"
    messages :=
      summary.failures.map (fun f => s!"Task {f.source} failed: {f.reason}") ++
        [s!"{results.records.size} matching records"] ++
        if results.isCapped then
          [s!"Result cap of {maxResults} reached; narrow the query or time range"]
        else [] }

/-- Searches what has been loaded. -/
def searchLoaded (environment : Environment) (settings : Settings.Engine) (o : SearchOptions)
    (expression : Query.Expr) (w : Workspace) : Except Crash Output :=
  if !w.hasSources then .ok { exitCode := 1, messages := ["No searchable log files"] }
  else
    let window : Except Calendar.ReadError Search.Window := do
      return ⟨← Calendar.readBound o.start, ← Calendar.readBound o.stop⟩
    match window with
    | .error e => .ok { exitCode := 2, messages := [invalidArgument e.message] }
    | .ok window =>
      let maxResults := match o.maxResults with
        | none => settings.maxResults
        | some n => if n = 0 then settings.maxResults else n
      let engine : Search.Engine := { settings }
      let outcome := (engine.search environment { expression, window } maxResults false w.tasks).1
      match outcome.report with
      | .error e => .error (.searching e)
      | .ok summary => .ok (outputOf maxResults outcome.results summary)

/-- Searches files. -/
def search (environment : Environment) (settings : Settings.Engine)
    (read : String → Except FileError Bytes) (o : SearchOptions) : Except Crash Output :=
  match Query.compile o.query o.logic with
  | .error e => .ok { exitCode := 2, messages := [s!"Invalid query: {e.report}"] }
  | .ok expression =>
    match load environment settings.timeRangeWindow read o.paths {} with
    | (_, .error (.crash a)) => .error (.loading a)
    | (messages, .error (.badValue reason)) =>
      .ok { exitCode := 2, messages := messages ++ [invalidArgument reason] }
    | (messages, .ok w) =>
      (searchLoaded environment settings o expression w).map fun output =>
        { output with messages := messages ++ output.messages }

end LogSearch.Command
