/-
What a search looks for, and under which rules.
-/
import LogSearch.Environment
import LogSearch.Query.Expr
import LogSearch.Record
import LogSearch.Search.Window
import LogSearch.Settings.Engine

set_option autoImplicit false

namespace LogSearch.Search

/-- What a search looks for. -/
structure Criteria where
  /-- The condition on the content of a record. -/
  expression : Query.Expr
  /-- Where its time has to lie. -/
  window : Window := {}

/-- Whether a record is looked for. -/
def Criteria.accept (c : Criteria) (r : Record) : Bool :=
  c.window.contains r.timestamp && c.expression.holdsFor r.content

/-- All that the workers of a search have to know. -/
structure Job where
  /-- What is looked for. -/
  criteria : Criteria
  /-- The rules. -/
  settings : Settings.Engine
  /-- The surroundings. -/
  environment : Environment

/-- The number of lines from one checkpoint to the next. -/
def Job.interval (job : Job) : Nat :=
  max 1 job.settings.lineYieldInterval.toNat

end LogSearch.Search
