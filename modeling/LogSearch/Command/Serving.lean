/-
The command that runs the service: where it listens, and how much is logged.
-/
import LogSearch.Command.Invocation
import LogSearch.Settings.Server

set_option autoImplicit false

namespace LogSearch.Command

/-- Where the service listens. -/
structure Listening where
  /-- The address. -/
  host : String
  /-- The port. -/
  port : Int
deriving DecidableEq, Repr

/-- Where the service listens, by the options and else by the settings. An empty address and the
port zero count as not given. -/
def Listening.of (settings : Settings.Server) (o : ServeOptions) : Listening where
  host := match o.host with
    | none => settings.host
    | some "" => settings.host
    | some host => host
  port := match o.port with
    | none => settings.port
    | some port => if port = 0 then settings.port else port

/-- The weights of the levels of messages. A message is logged if it weighs as much as the least
level. -/
def levels : List (String × Nat) :=
  [("NOTSET", 0), ("DEBUG", 10), ("INFO", 20), ("WARN", 30), ("WARNING", 30), ("ERROR", 40),
    ("CRITICAL", 50), ("FATAL", 50)]

/-- The weight of the level of some name; what is not the name of a level stands for information. -/
def levelOf (name : String) : Nat :=
  (levels.lookup (Text.upper name)).getD 20

/-- The weight of the least level that is logged. -/
def levelFor (settings : Settings.Server) (i : Invocation) : Nat :=
  match i.task with
  | .search _ => if i.isDebug then 10 else 30
  | .serve o =>
    if i.isDebug then 10
    else match o.logLevel with
      | none => levelOf settings.logLevel
      | some "" => levelOf settings.logLevel
      | some name => levelOf name

end LogSearch.Command
