/-
How a log server is talked to.
-/
import LogSearch.Decimal.Reading
import LogSearch.Settings.Variables

set_option autoImplicit false

namespace LogSearch.Settings

/-- The settings for log servers. -/
structure Remote where
  /-- The secret that proves who asks. -/
  token : String := ""
  /-- The seconds that a request may take. -/
  timeout : Decimal.Binary64 := .ofDecimal false 300 0
deriving DecidableEq, Repr

/-- Reads the settings for log servers. -/
def Remote.read (vars : Variables) : Reading Remote := do
  let given : Remote := {}
  return {
    token := (vars.value? "REMOTE_TOKEN").getD given.token
    timeout := ← readNumber Decimal.readBinary64? vars "REMOTE_TIMEOUT" given.timeout }

end LogSearch.Settings
