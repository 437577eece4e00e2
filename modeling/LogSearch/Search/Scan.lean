/-
Scanning one log for matching records.

A scan goes over the lines of a log. In front of every line whose number is a
multiple of the interval it waits at a checkpoint, where its worker looks at the
signal and other workers get their turn. It ends early when it meets a
matching record for which the log has no room left; so a log with exactly as
many matching records as it may have is not cut short.
-/
import LogSearch.Search.Job
import LogSearch.Search.Task

set_option autoImplicit false

namespace LogSearch.Search

/-- What one log hands over. -/
structure Haul where
  /-- The matching records. -/
  records : Array Record
  /-- Whether there are more. -/
  isCapped : Bool
deriving Repr

/-- A scan that waits at a checkpoint. -/
structure Scan where
  /-- The record that is being put together. -/
  assembler : Record.Assembler
  /-- The matching records so far. -/
  found : Array Record
  /-- The lines ahead. -/
  lines : List (Nat × String)
deriving Repr

/-- What a scan comes to. -/
inductive Scan.Stop where
  /-- A checkpoint. -/
  | checkpoint (scan : Scan)
  /-- The end. -/
  | ended (haul : Haul)
deriving Repr

namespace Job

/-- Puts a completed record to the others if it matches; `none` if it does but there is no room. -/
def collect? (job : Job) (found : Array Record) : Option Record → Option (Array Record)
  | none => some found
  | some record =>
    if job.criteria.accept record then
      if job.settings.perTaskMaxResults ≤ found.size then none else some (found.push record)
    else some found

/-- Goes on up to the next checkpoint or to the end. `isPassed` says that the checkpoint in front
of the next line, if there is one, lies behind. -/
def proceed (job : Job) (isPassed : Bool) (assembler : Record.Assembler) (found : Array Record) :
    List (Nat × String) → Scan.Stop
  | [] =>
    match job.collect? found assembler.flush.1 with
    | none => .ended ⟨found, true⟩
    | some found => .ended ⟨found, false⟩
  | (number, line) :: lines =>
    if !isPassed && number % job.interval = 0 then
      .checkpoint ⟨assembler, found, (number, line) :: lines⟩
    else
      let fed := assembler.feed number line
      match job.collect? found fed.1 with
      | none => .ended ⟨found, true⟩
      | some found => job.proceed false fed.2 found lines

/-- Starts a scan of the text of a task. -/
def start (job : Job) (task : Task) (text : String) : Scan.Stop :=
  let fallback :=
    Timestamp.yearFor job.environment.currentYear task.source (some task.name) none
  if text.isEmpty then .ended ⟨#[], false⟩
  else job.proceed false { source := task.source, year := fallback.year } #[]
    (Text.numberedLines text)

/-- Goes on from a checkpoint. -/
def resume (job : Job) (scan : Scan) : Scan.Stop :=
  job.proceed true scan.assembler scan.found scan.lines

theorem length_le_of_proceed_eq_checkpoint {job : Job} {isPassed : Bool}
    {assembler : Record.Assembler} {found : Array Record} {lines : List (Nat × String)}
    {scan : Scan} (h : job.proceed isPassed assembler found lines = .checkpoint scan) :
    scan.lines.length ≤ lines.length := by
  induction lines generalizing isPassed assembler found with
  | nil =>
    rw [proceed] at h
    split at h <;> cases h
  | cons line lines ih =>
    rw [proceed] at h
    split at h
    · cases h
      exact Nat.le_refl _
    · dsimp only at h
      split at h
      · cases h
      · exact Nat.le_succ_of_le (ih h)

/-- A scan that goes on has fewer lines ahead at the next checkpoint. -/
theorem length_lt_of_resume_eq_checkpoint {job : Job} {scan next : Scan}
    (h : job.resume scan = .checkpoint next) : next.lines.length < scan.lines.length := by
  rw [resume] at h
  cases hl : scan.lines with
  | nil =>
    rw [hl, proceed] at h
    split at h <;> cases h
  | cons line lines =>
    rw [hl, proceed] at h
    split at h
    · simp_all
    · dsimp only at h
      split at h
      · cases h
      · exact Nat.lt_succ_of_le (length_le_of_proceed_eq_checkpoint h)

end Job

end LogSearch.Search
