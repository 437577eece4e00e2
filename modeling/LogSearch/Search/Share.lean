/-
How the logs of a search are shared out among its workers.

Every worker gets a run of logs that stand next to each other, and all runs but
the last are of one length. There are no more workers than logs, processors, and
the settings allow, but always one; and since the length of a run is rounded up,
some may be left without a run.
-/
import LogSearch.Environment
import LogSearch.Settings.Engine

set_option autoImplicit false

namespace LogSearch.Search

/-- The number of processors that is assumed where it is not known. -/
def assumedProcessors : Nat := 4

/-- The number of processors to use. -/
def processors (environment : Environment) : Nat :=
  match environment.processors with
  | none => assumedProcessors
  | some 0 => assumedProcessors
  | some n => n

/-- The number of workers for so many logs. -/
def workerCount (environment : Environment) (settings : Settings.Engine) (tasks : Nat) : Nat :=
  max 1 (min (min (processors environment) tasks) settings.maxWorkers.toNat)

/-- Why a list cannot be shared out. -/
inductive ShareError where
  /-- There are no workers. -/
  | noWorkers
  /-- The length of a share is zero. -/
  | emptyShares
deriving DecidableEq, Repr

/-- What is wrong. -/
def ShareError.message : ShareError → String
  | noWorkers => "division by zero"
  | emptyShares => "range() arg 3 must not be zero"

/-- The runs of `size` items each. -/
def runsOf {α : Type} (size : Nat) (xs : List α) : List (List α) :=
  if xs.isEmpty ∨ size = 0 then []
  else xs.take size :: runsOf size (xs.drop size)
termination_by xs.length
decreasing_by
  simp_all only [not_or, List.isEmpty_iff, List.length_drop]
  have := List.length_pos_iff.2 ‹¬xs = [] ∧ _›.1
  omega

/-- The shares of so many workers. There is nothing to share out if the number of workers is
negative beyond that of the items. -/
def shares {α : Type} (workers : Int) (xs : List α) : Except ShareError (List (List α)) :=
  if xs.isEmpty then .ok []
  else if workers = 0 then .error .noWorkers
  else
    let size := -(Int.fdiv (-(xs.length : Int)) workers)
    if size = 0 then .error .emptyShares else .ok (runsOf size.toNat xs)

end LogSearch.Search
