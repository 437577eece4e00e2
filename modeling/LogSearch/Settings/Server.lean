/-
Where the service listens, which pages may call it, and how much it logs.
-/
import LogSearch.Decimal.Reading
import LogSearch.Settings.Variables
import LogSearch.Text.Cut
import LogSearch.Text.Uppercase

set_option autoImplicit false

namespace LogSearch.Settings

/-- The settings of the service. -/
structure Server where
  /-- The address to listen on. -/
  host : String := "127.0.0.1"
  /-- The port to listen on. -/
  port : Int := 8000
  /-- The origins of pages that may call the service. -/
  corsOrigins : List String := ["http://localhost:3000"]
  /-- The name of the least level that is logged. -/
  logLevel : String := "INFO"
deriving DecidableEq, Repr

/-- The origins in a list with commas. -/
def splitOrigins (value : String) : List String :=
  ((Text.splitOn ',' value).map Text.trim).filter (!·.isEmpty)

/-- Reads the settings of the service. An empty address or level counts, an empty list of origins
does not. -/
def Server.read (vars : Variables) : Reading Server := do
  let given : Server := {}
  return {
    host := (vars.value? "HOST").getD given.host
    port := ← readNumber Decimal.readInt? vars "PORT" given.port
    corsOrigins :=
      match vars.value? "CORS_ORIGINS" with
      | none => given.corsOrigins
      | some "" => given.corsOrigins
      | some value => splitOrigins value
    logLevel := Text.upper ((vars.value? "LOG_LEVEL").getD given.logLevel) }

end LogSearch.Settings
