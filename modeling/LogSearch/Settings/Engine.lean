/-
How searches run: their caps, how many workers share the work, and how often a
worker pauses to let others in.

The cap on a whole search and the cap on each log are independent, even though
their defaults are the same number.
-/
import LogSearch.Decimal.Reading
import LogSearch.Settings.Variables

set_option autoImplicit false

namespace LogSearch.Settings

/-- The settings of the search engine. All numbers are taken as they are given. -/
structure Engine where
  /-- The most records of a search. -/
  maxResults : Int := 20000
  /-- The most records of one log in a search. -/
  perTaskMaxResults : Int := 20000
  /-- The most workers of a search. -/
  maxWorkers : Int := 8
  /-- The number of logs after which a worker pauses. -/
  taskBatchSize : Int := 2
  /-- The seconds of that pause. -/
  taskBatchDelay : Decimal.Binary64 := .ofDecimal false 1 (-2)
  /-- The number of lines after which a worker pauses. -/
  lineYieldInterval : Int := 1000
  /-- The seconds of that pause. -/
  lineYieldDelay : Decimal.Binary64 := .ofDecimal false 0 0
  /-- The number of lines at both ends of a log that are looked at for its range of time. -/
  timeRangeWindow : Int := 1000
deriving DecidableEq, Repr

/-- Reads the settings of the search engine. -/
def Engine.read (vars : Variables) : Reading Engine := do
  let given : Engine := {}
  let int := readNumber Decimal.readInt? vars
  let seconds := readNumber Decimal.readBinary64? vars
  return {
    maxResults := ← int "MAX_RESULTS" given.maxResults
    perTaskMaxResults := ← int "PER_TASK_MAX_RESULTS" given.perTaskMaxResults
    maxWorkers := ← int "MAX_WORKERS" given.maxWorkers
    taskBatchSize := ← int "TASK_BATCH_SIZE" given.taskBatchSize
    taskBatchDelay := ← seconds "TASK_BATCH_DELAY" given.taskBatchDelay
    lineYieldInterval := ← int "LINE_YIELD_INTERVAL" given.lineYieldInterval
    lineYieldDelay := ← seconds "LINE_YIELD_DELAY" given.lineYieldDelay
    timeRangeWindow := ← int "TIME_RANGE_WINDOW" given.timeRangeWindow }

end LogSearch.Settings
