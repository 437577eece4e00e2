/-
Workers: each goes over its share of the logs, one after the other.

A worker moves in steps, and between any two steps of one worker the others may
make theirs. At a step it looks at the signal and then scans on to the next
checkpoint, or it hands over what it has found in a log, or it looks at the
signal once more behind that. What the workers share is touched in no other way.

A log that cannot be read counts as a failure, and the worker goes on with the
next one.
-/
import LogSearch.Search.Scan
import LogSearch.Search.Share
import LogSearch.Search.Signal
import LogSearch.Search.Sink

set_option autoImplicit false

namespace LogSearch.Search

/-- A log that could not be read. -/
structure Failure where
  /-- The name of the log. -/
  source : String
  /-- The reason. -/
  reason : String
deriving DecidableEq, Repr

/-- What the workers of a search share. -/
structure Progress (σ : Type) where
  /-- The signal to stop. -/
  signal : Signal
  /-- The state of the sink. -/
  sink : σ
  /-- The number of logs that have been handed over. -/
  completed : Nat := 0
  /-- The number of records that have been handed over. -/
  matched : Nat := 0
  /-- The logs that could not be read. -/
  failures : Array Failure := #[]
  /-- Whether the sink wants no more. -/
  isFull : Bool := false

namespace Progress

variable {σ : Type}

/-- Looks at the signal. -/
def look (p : Progress σ) : Bool × Progress σ :=
  let (isUp, signal) := p.signal.look
  (isUp, { p with signal })

/-- Passes records to the sink, which may put up the signal. -/
def deliver (sink : Sink σ) (records : Array Record) (p : Progress σ) : Progress σ :=
  if records.isEmpty then p
  else
    let (isFull, state) := sink.accept records.toList p.sink
    { p with
      sink := state
      matched := p.matched + records.size
      signal := if isFull then p.signal.raise else p.signal
      isFull := p.isFull || isFull }

/-- Hands over what was found in a log. -/
def handOver (sink : Sink σ) (source : String) (haul : Haul) (p : Progress σ) : Progress σ :=
  let p := p.deliver sink haul.records
  { p with
    sink := if haul.isCapped then sink.noteCapped source p.sink else p.sink
    completed := p.completed + 1 }

end Progress

/-- Why a search breaks off. -/
inductive Abort where
  /-- The number of logs after which a worker pauses is zero. -/
  | noBatchSize
  /-- The logs cannot be shared out. -/
  | unshared (e : ShareError)
deriving DecidableEq, Repr

/-- The text of the report. -/
def Abort.message : Abort → String
  | noBatchSize => "integer modulo by zero"
  | unshared e => e.message

/-- Where a worker stands, with the logs that it has not begun. -/
inductive Worker where
  /-- In front of the next log. -/
  | ready (tasks : List Task)
  /-- At a checkpoint within a log. -/
  | scanning (source : String) (scan : Scan) (tasks : List Task)
  /-- At the end of a log, which is still to be handed over. -/
  | holding (source : String) (haul : Haul) (tasks : List Task)
  /-- Behind a log. -/
  | behind (tasks : List Task)
  /-- At the end. -/
  | finished
  /-- At an end that should not be. -/
  | broken (a : Abort)

namespace Worker

variable {σ : Type}

/-- Where a worker stands when its scan has stopped. -/
def ofStop (source : String) (tasks : List Task) : Scan.Stop → Worker
  | .checkpoint scan => scanning source scan tasks
  | .ended haul => holding source haul tasks

/-- One step. -/
def step (job : Job) (sink : Sink σ) (p : Progress σ) : Worker → Worker × Progress σ
  | ready [] => (finished, p)
  | ready (task :: tasks) =>
    let (isUp, p) := p.look
    if isUp then (finished, p)
    else
      match task.resolve job.environment.hasZstd with
      | .error e => (ready tasks, { p with failures := p.failures.push ⟨task.source, e.message⟩ })
      | .ok text => (ofStop task.source tasks (job.start task text), p)
  | scanning source scan tasks =>
    let (isUp, p) := p.look
    if isUp then (holding source ⟨scan.found, false⟩ tasks, p)
    else (ofStop source tasks (job.resume scan), p)
  | holding source haul tasks => (behind tasks, p.handOver sink source haul)
  | behind tasks =>
    let (isUp, p) := p.look
    if isUp then (finished, p)
    else if job.settings.taskBatchSize = 0 then (broken .noBatchSize, p)
    else (ready tasks, p)
  | finished => (finished, p)
  | broken a => (broken a, p)

/-! ## The way to the end -/

/-- Whether the worker makes no more steps. -/
def isDone : Worker → Bool
  | finished => true
  | broken _ => true
  | _ => false

/-- How far it is to the end: the logs ahead, the steps up to the next log, and the lines ahead. -/
def distance : Worker → Nat × Nat × Nat
  | ready tasks => (tasks.length + 1, 0, 0)
  | scanning _ scan tasks => (tasks.length + 1, 3, scan.lines.length)
  | holding _ _ tasks => (tasks.length + 1, 2, 0)
  | behind tasks => (tasks.length + 1, 1, 0)
  | finished => (0, 0, 0)
  | broken _ => (0, 0, 0)

/-- The order of distances. -/
abbrev isNearer : Nat × Nat × Nat → Nat × Nat × Nat → Prop :=
  Prod.Lex (· < ·) (Prod.Lex (· < ·) (· < ·))

/-- Every step leads towards the end. -/
theorem isNearer_distance_step (job : Job) (sink : Sink σ) (p : Progress σ) {w : Worker}
    (h : w.isDone = false) : isNearer (w.step job sink p).1.distance w.distance := by
  have ofStop_lt (source : String) (tasks : List Task) (stop : Scan.Stop) (task : Task) :
      isNearer (ofStop source tasks stop).distance (ready (task :: tasks)).distance := by
    cases stop <;> exact .left _ _ (by simp)
  match w with
  | ready [] => exact .left _ _ (by simp)
  | ready (task :: tasks) =>
    rw [step]
    dsimp only
    split
    · exact .left _ _ (by simp)
    · split
      · exact .left _ _ (by simp)
      · exact ofStop_lt ..
  | scanning source scan tasks =>
    rw [step]
    dsimp only
    split
    · exact .right _ (.left _ _ (by simp))
    · cases hs : job.resume scan with
      | checkpoint next =>
        exact .right _ (.right _ (Job.length_lt_of_resume_eq_checkpoint hs))
      | ended haul => exact .right _ (.left _ _ (by simp))
  | holding source haul tasks => exact .right _ (.left _ _ (by simp))
  | behind tasks =>
    rw [step]
    dsimp only
    split
    · exact .left _ _ (by simp)
    · split
      · exact .left _ _ (by simp)
      · exact .right _ (.left _ _ (by simp))
  | finished => cases h
  | broken _ => cases h

/-- Goes on alone to the end. -/
def run (job : Job) (sink : Sink σ) (w : Worker) (p : Progress σ) : Worker × Progress σ :=
  if w.isDone then (w, p)
  else
    let next := w.step job sink p
    run job sink next.1 next.2
termination_by w.distance
decreasing_by exact isNearer_distance_step job sink p (Bool.eq_false_iff.2 ‹_›)

end Worker

end LogSearch.Search
