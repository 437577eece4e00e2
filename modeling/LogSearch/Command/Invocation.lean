/-
What the program is asked to do.

There are two commands: one runs the service, the other searches files and prints
what it finds. In front of the command a flag asks for more logging. Of an option
that is given twice the last one counts.
-/
import LogSearch.Command.Event
import LogSearch.Decimal.Reading

set_option autoImplicit false

namespace LogSearch.Command

/-- Running the service. -/
structure ServeOptions where
  /-- The address to listen on. -/
  host : Option String := none
  /-- The port to listen on. -/
  port : Option Int := none
  /-- The name of the least level that is logged. -/
  logLevel : Option String := none
deriving DecidableEq, Repr

/-- Searching files. -/
structure SearchOptions where
  /-- The paths of the files. -/
  paths : List String
  /-- The query. -/
  query : String
  /-- How the lines of the query are joined if it is one of plain keywords. -/
  logic : Option String := none
  /-- The first time. -/
  start : Option String := none
  /-- The last time. -/
  stop : Option String := none
  /-- The most records. -/
  maxResults : Option Int := none
deriving DecidableEq, Repr

/-- A command. -/
inductive Task where
  /-- To run the service. -/
  | serve (options : ServeOptions)
  /-- To search files. -/
  | search (options : SearchOptions)
deriving DecidableEq, Repr

/-- What the program is asked to do. -/
structure Invocation where
  /-- Whether everything is to be logged. -/
  isDebug : Bool
  /-- The command. -/
  task : Task
deriving DecidableEq, Repr

/-- What is told about the use of the program instead. -/
inductive Usage where
  /-- Help was asked for. -/
  | help
  /-- The arguments make no sense. -/
  | misuse
deriving DecidableEq, Repr

/-- The exit code. -/
def Usage.exitCode : Usage → Nat
  | help => 0
  | misuse => 2

/-- Goes through what was said, and then fails if there was too much. Help and mistakes end it. -/
def follow {σ : Type} (act : σ → Event → Except Usage σ) :
    Bool → σ → List Event → Except Usage σ
  | hasExtra, state, [] => if hasExtra then .error .misuse else .ok state
  | _, _, .help :: _ => .error .help
  | _, _, .mistake :: _ => .error .misuse
  | _, state, .extra :: events => follow act true state events
  | hasExtra, state, event :: events => do follow act hasExtra (← act state event) events

/-- Reads a whole number. -/
def readNumber (text : String) : Except Usage Int :=
  match Decimal.readInt? text with
  | some n => .ok n
  | none => .error .misuse

/-- What arguments say; they make no sense if one of them may mean several options. -/
def eventsOf (specs : List OptionSpec) (expectsWords : Bool) (arguments : List String) :
    List Event :=
  match tokens? specs arguments with
  | none => [.mistake]
  | some tokens => events specs expectsWords tokens

/-! ## Running the service -/

/-- The options for running the service. -/
def serveSpecs : List OptionSpec :=
  [.help, .value "host" ["--host"], .value "port" ["--port"], .value "log-level" ["--log-level"]]

/-- Takes account of an option. -/
def takeServe (options : ServeOptions) : Event → Except Usage ServeOptions
  | .value "host" host => .ok { options with host := some host }
  | .value "port" port => do return { options with port := some (← readNumber port) }
  | .value "log-level" level => .ok { options with logLevel := some level }
  | _ => .ok options

/-- Reads the arguments for running the service. -/
def readServe (arguments : List String) : Except Usage ServeOptions :=
  follow takeServe false {} (eventsOf serveSpecs false arguments)

/-! ## Searching files -/

/-- The options for searching files. -/
def searchSpecs : List OptionSpec :=
  [.help, .value "query" ["-q", "--query"], .value "logic" ["--logic"],
    .value "begin" ["--begin"], .value "end" ["--end"], .value "max-results" ["--max-results"]]

/-- The options for searching files as far as they are known, with the query if it is. -/
abbrev SearchDraft := Option String × SearchOptions

/-- Takes account of an option. -/
def takeSearch (draft : SearchDraft) : Event → Except Usage SearchDraft
  | .words paths => .ok (draft.1, { draft.2 with paths })
  | .value "query" query => .ok (some query, draft.2)
  | .value "logic" logic =>
    if logic = "and" ∨ logic = "or" then .ok (draft.1, { draft.2 with logic := some logic })
    else .error .misuse
  | .value "begin" start => .ok (draft.1, { draft.2 with start := some start })
  | .value "end" stop => .ok (draft.1, { draft.2 with stop := some stop })
  | .value "max-results" n => do
    return (draft.1, { draft.2 with maxResults := some (← readNumber n) })
  | _ => .ok draft

/-- Reads the arguments for searching files. The files and the query have to be given. -/
def readSearch (arguments : List String) : Except Usage SearchOptions := do
  match ← follow takeSearch false (none, ⟨[], "", none, none, none, none⟩)
      (eventsOf searchSpecs true arguments) with
  | (some query, options) =>
    if options.paths.isEmpty then throw .misuse else return { options with query }
  | (none, _) => throw .misuse

/-! ## The whole -/

/-- The options in front of a command. -/
def mainSpecs : List OptionSpec :=
  [.help, ⟨"debug", ["--debug"], .flag⟩]

/-- Reads the arguments of a command. -/
def readTask (name : String) (arguments : List String) : Except Usage Task :=
  match name with
  | "serve" => (readServe arguments).map .serve
  | "search" => (readSearch arguments).map .search
  | _ => .error .misuse

/-- Takes account of what stands in front of a command, and of the command. -/
def takeMain (draft : Bool × Option Task) : Event → Except Usage (Bool × Option Task)
  | .flag _ => .ok (true, draft.2)
  | .command name arguments => do return (draft.1, some (← readTask name arguments))
  | _ => .ok draft

/-- Reads the arguments of the program. -/
def Invocation.ofArguments (arguments : List String) : Except Usage Invocation := do
  let some tokens := tokens? mainSpecs arguments | throw .misuse
  match ← follow takeMain false (false, none) (commandEvents mainSpecs (tokens.zip arguments)) with
  | (isDebug, some task) => return { isDebug, task }
  | (_, none) => throw .misuse

end LogSearch.Command
