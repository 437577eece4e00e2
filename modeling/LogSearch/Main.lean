/-
The program: reads its arguments, the environment and the files that it is given,
and prints what the commands leave behind.
-/
import LogSearch.Command.Searching
import LogSearch.Command.Serving
import Std.Time.DateTime

set_option autoImplicit false

open LogSearch

/-- The names of all variables that settings are read from. -/
def variableNames : List String :=
  ["MAX_RESULTS", "PER_TASK_MAX_RESULTS", "MAX_WORKERS", "TASK_BATCH_SIZE", "TASK_BATCH_DELAY",
    "LINE_YIELD_INTERVAL", "LINE_YIELD_DELAY", "TIME_RANGE_WINDOW", "HOST", "PORT",
    "CORS_ORIGINS", "LOG_LEVEL"].map (Settings.variablePrefix ++ ·)

/-- The variables that are set. -/
def readVariables : IO Settings.Variables :=
  variableNames.filterMapM fun name => do
    return (← IO.getEnv name).map fun value => (name, value)

/-- The number of the day on which the counting of seconds began. -/
def dayOfEpoch : Int := 719163

/-- The current year. -/
def currentYear : IO Nat := do
  let now ← Std.Time.Timestamp.now
  let day := dayOfEpoch + now.toSecondsSinceUnixEpoch.val / 86400
  return ((Calendar.Date.ofDayNumber? day.toNat).map (·.year)).getD 1970

/-- Reads a file. -/
def readFile (path : String) : IO (Except Command.FileError Bytes) := do
  match ← (IO.FS.readBinFile path).toBaseIO with
  | .ok data => return .ok data.toList
  | .error (.noFileOrDirectory ..) => return .error .notFound
  | .error (.inappropriateType _ code reason) => return .error ⟨code.toNat, reason⟩
  | .error (.permissionDenied _ code reason) => return .error ⟨code.toNat, reason⟩
  | .error e => return .error ⟨5, toString e⟩

/-- Prints what a command leaves behind. -/
def print (o : Command.Output) : IO UInt32 := do
  IO.print o.out
  IO.eprint o.messageText
  return o.exitCode.toUInt32

/-- Searches files. -/
def runSearch (vars : Settings.Variables) (o : Command.SearchOptions) : IO UInt32 := do
  let settings := ((Settings.Engine.read vars).run []).1
  let environment : Environment := { currentYear := ← currentYear, processors := none }
  let paths := o.paths.map PathName.normalized
  let files ← paths.mapM fun path => do return (path, ← readFile path)
  let read (path : String) := (files.lookup path).getD (.error .notFound)
  match Command.search environment settings read o with
  | .ok output => print output
  | .error (.loading a) => print { exitCode := 1, messages := [a.message] }
  | .error (.searching e) => print { exitCode := 1, messages := [e.message] }

/-- Says where the service would listen: the program has no network of its own, and whoever embeds
the service hands its requests to `Service.handle`. -/
def runServe (vars : Settings.Variables) (o : Command.ServeOptions) : IO UInt32 := do
  let settings := ((Settings.Server.read vars).run []).1
  let listening := Command.Listening.of settings o
  print { exitCode := 1, messages :=
    [s!"No network to listen on {listening.host}:{listening.port}"] }

def main (arguments : List String) : IO UInt32 := do
  match Command.Invocation.ofArguments arguments with
  | .error usage =>
    IO.eprintln "usage: serve [--host HOST] [--port PORT] [--log-level LEVEL]"
    IO.eprintln "       search PATH... -q QUERY [--logic and|or] [--begin TIME] [--end TIME]"
    IO.eprintln "              [--max-results COUNT]"
    return usage.exitCode.toUInt32
  | .ok invocation =>
    let vars ← readVariables
    match invocation.task with
    | .search o => runSearch vars o
    | .serve o => runServe vars o
