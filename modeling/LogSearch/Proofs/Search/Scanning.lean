/-
What a scan comes to, in closed form.

A scan is driven line by line and may wait at checkpoints, be stopped there, or
end early at the cap of its log. All of this is settled by one number, the count
of lines that have been fed: `scanAt` is the state of the scan behind so many
lines, and `checkpoints` are the counts at which it waits. The main result,
`start_eq`, says that a scan goes from one of these to the next and ends with
`haulOf`, the matching records of the full parse up to the cap. Interval and
waiting do not occur in `haulOf`, so they have no influence on it.

The cap is where the cases interact. The scan ends at the first match for which
there is no room, and this match may be completed by a line or by the end of the
text. In both cases the records in hand are the first `cap` matches, because the
overflow is by exactly one.
-/
import LogSearch.Proofs.Record.Feeding
import LogSearch.Proofs.Text.Lines
import LogSearch.Search.Scan

set_option autoImplicit false

namespace LogSearch.Search.Job

open Record (Assembler)

/-! ## What a log holds -/

section Contents

variable (job : Job) (task : Task) (text : String)

/-- The most records that one log may hand over. A negative cap admits none. -/
def taskCap : Nat :=
  job.settings.perTaskMaxResults.toNat

/-- The year that timestamps without one get in a log. -/
def yearOf : Int :=
  (Timestamp.yearFor job.environment.currentYear task.source (some task.name) none).year

/-- The records of a text, all of it parsed under the name of a task. -/
def recordsOf : List Record :=
  Record.ofText text task.source (job.yearOf task)

/-- The records of a text that are looked for. -/
def matchesIn : List Record :=
  (job.recordsOf task text).filter job.criteria.accept

/-- The records of a log that are looked for; a log that cannot be read has none. -/
def matchesOf : List Record :=
  match task.resolve job.environment.hasZstd with
  | .ok text => job.matchesIn task text
  | .error _ => []

/-- The records that a log hands over when nothing interrupts its scan. -/
def keptOf : List Record :=
  (job.matchesOf task).take job.taskCap

/-- What the scan of a text hands over when nothing interrupts it. -/
def haulOf : Haul where
  records := ((job.matchesIn task text).take job.taskCap).toArray
  isCapped := decide (job.taskCap < (job.matchesIn task text).length)

/-! ## The scan behind so many lines -/

/-- The assembler that a scan starts with. -/
def assemblerOf : Assembler :=
  { source := task.source, year := job.yearOf task }

/-- The matching records among those that feeding `fed` lines has completed. -/
def foundAfter (fed : Nat) : List Record :=
  ((job.assemblerOf task).closed ((Text.numberedLines text).take fed)).filter job.criteria.accept

/-- The scan when `fed` lines have been fed. -/
def scanAt (fed : Nat) : Scan where
  assembler := (job.assemblerOf task).after ((Text.numberedLines text).take fed)
  found := (job.foundAfter task text fed).toArray
  lines := (Text.numberedLines text).drop fed

/-- Whether a scan looks at the signal when `fed` lines have been fed: the number of
the next line is a multiple of the interval, and the cap has not ended the scan. -/
def LooksAfter (fed : Nat) : Prop :=
  (fed + 1) % job.interval = 0 ∧ (job.foundAfter task text fed).length ≤ job.taskCap

instance (fed : Nat) : Decidable (job.LooksAfter task text fed) :=
  inferInstanceAs (Decidable (_ ∧ _))

/-- The looks of a scan that lie ahead when `fed` lines have been fed. Each is given by
the number of lines that have been fed by then. -/
def checkpointsFrom (fed : Nat) : List Nat :=
  (List.range' fed ((Text.numberedLines text).length - fed)).filter
    fun i => job.LooksAfter task text i

/-- The looks of a scan, in order. -/
def checkpoints : List Nat :=
  job.checkpointsFrom task text 0

/-- Where a scan stops next, given the looks ahead of it. -/
def stopOf : List Nat → Scan.Stop
  | [] => .ended (job.haulOf task text)
  | fed :: _ => .checkpoint (job.scanAt task text fed)

end Contents

/-! ## One line -/

section Scanning

variable (job : Job) (task : Task) (text : String)

variable {job task text} in
theorem matchesOf_of_resolve (h : task.resolve job.environment.hasZstd = .ok text) :
    job.matchesOf task = job.matchesIn task text := by
  rw [matchesOf, h]

variable {job task} in
theorem matchesOf_of_error {e : Payload.Error}
    (h : task.resolve job.environment.hasZstd = .error e) : job.matchesOf task = [] := by
  rw [matchesOf, h]

/-- Collecting in terms of lists: the record joins the others if it matches, and there is
no room for it exactly if this would exceed the cap. -/
theorem collect?_toArray (found : List Record) (record : Option Record)
    (hroom : found.length ≤ job.taskCap) :
    job.collect? found.toArray record
      = if (found ++ record.toList.filter job.criteria.accept).length ≤ job.taskCap
        then some (found ++ record.toList.filter job.criteria.accept).toArray else none := by
  -- the cap may be negative, but then it admits no more than zero does
  cases record with
  | none => simp [collect?, hroom]
  | some r =>
    by_cases hr : job.criteria.accept r = true
    · have hcap : job.settings.perTaskMaxResults ≤ (found.toArray.size : Int)
          ↔ ¬ (found ++ [r]).length ≤ job.taskCap := by
        simp only [taskCap, List.size_toArray, List.length_append, List.length_singleton]
        omega
      simp only [collect?, hr, if_true, Option.toList_some, List.filter_cons, List.filter_nil,
        hcap, ite_not, List.push_toArray]
    · simp [collect?, hr, hroom]

/-- Feeding the next line. -/
theorem after_take_succ {fed : Nat} (h : fed < (Text.numberedLines text).length) :
    (job.assemblerOf task).after ((Text.numberedLines text).take (fed + 1))
      = (((job.assemblerOf task).after ((Text.numberedLines text).take fed)).feed
          ((Text.numberedLines text)[fed]).1 ((Text.numberedLines text)[fed]).2).2 := by
  rw [List.take_add_one, List.getElem?_eq_getElem h, Option.toList_some,
    Assembler.after_concat]

theorem foundAfter_succ {fed : Nat} (h : fed < (Text.numberedLines text).length) :
    job.foundAfter task text (fed + 1)
      = job.foundAfter task text fed
        ++ (((job.assemblerOf task).after ((Text.numberedLines text).take fed)).feed
            ((Text.numberedLines text)[fed]).1
            ((Text.numberedLines text)[fed]).2).1.toList.filter job.criteria.accept := by
  rw [foundAfter, List.take_add_one, List.getElem?_eq_getElem h, Option.toList_some,
    Assembler.closed_concat, List.filter_append]
  rfl

/-- What is found early is found later as well. -/
theorem foundAfter_isPrefix {i j : Nat} (h : i ≤ j) :
    job.foundAfter task text i <+: job.foundAfter task text j :=
  ((job.assemblerOf task).closed_take_isPrefix _ h).filter _

/-- What is found at a stop is a prefix of what the full parse holds. -/
theorem foundAfter_isPrefix_matchesIn (fed : Nat) :
    job.foundAfter task text fed <+: job.matchesIn task text :=
  ((job.assemblerOf task).closed_isPrefix_records _ fed).filter _

/-- The end of the text adds the match that was open, if there is one. -/
theorem matchesIn_eq :
    job.matchesIn task text
      = job.foundAfter task text (Text.numberedLines text).length
        ++ ((job.assemblerOf task).after (Text.numberedLines text)).flush.1.toList.filter
            job.criteria.accept := by
  rw [foundAfter, List.take_length, ← List.filter_append, ← Assembler.records_eq]
  rfl

/-! ## The checkpoints of a scan -/

variable {job task text} in
theorem mem_checkpoints {fed : Nat} :
    fed ∈ job.checkpoints task text
      ↔ fed < (Text.numberedLines text).length ∧ job.LooksAfter task text fed := by
  rw [checkpoints, checkpointsFrom, List.mem_filter, List.mem_range'_1, decide_eq_true_eq,
    Nat.zero_add, Nat.sub_zero]
  exact and_congr_left fun _ => and_iff_right (Nat.zero_le _)

variable {job task text} in
/-- What is found at a checkpoint is a prefix of what the log hands over. -/
theorem foundAfter_isPrefix_keptOf {fed : Nat}
    (ht : task.resolve job.environment.hasZstd = .ok text)
    (hfed : fed ∈ job.checkpoints task text) :
    job.foundAfter task text fed <+: job.keptOf task := by
  rw [keptOf, matchesOf_of_resolve ht, List.prefix_take_iff]
  exact ⟨job.foundAfter_isPrefix_matchesIn task text fed, (mem_checkpoints.mp hfed).2.2⟩

/-! ## From one stop to the next -/

/-- Behind a line that completes one match too many there are no looks: the cap has
ended the scan. -/
theorem checkpointsFrom_eq_nil {fed : Nat}
    (hover : job.taskCap < (job.foundAfter task text fed).length) :
    job.checkpointsFrom task text fed = [] := by
  rw [checkpointsFrom, List.filter_eq_nil_iff]
  intro i hi hlooks
  have hle : fed ≤ i := (List.mem_range'_1.mp hi).1
  have hmono := (job.foundAfter_isPrefix task text hle).length_le
  have hroom : (job.foundAfter task text i).length ≤ job.taskCap := (of_decide_eq_true hlooks).2
  omega

theorem checkpointsFrom_cons {fed : Nat} (h : fed < (Text.numberedLines text).length) :
    job.checkpointsFrom task text fed
      = if job.LooksAfter task text fed then fed :: job.checkpointsFrom task text (fed + 1)
        else job.checkpointsFrom task text (fed + 1) := by
  have hlen : (Text.numberedLines text).length - fed
      = ((Text.numberedLines text).length - (fed + 1)) + 1 := by omega
  rw [checkpointsFrom, checkpointsFrom, hlen, List.range'_succ, List.filter_cons]
  simp only [decide_eq_true_eq]

/-- The next look, and the looks behind it. -/
theorem of_checkpointsFrom_eq_cons {fed i : Nat} {looks : List Nat}
    (h : job.checkpointsFrom task text fed = i :: looks) :
    i < (Text.numberedLines text).length ∧ job.LooksAfter task text i
      ∧ job.checkpointsFrom task text (i + 1) = looks := by
  -- the lines in front of the next look are none, so the induction passes over them
  induction hk : (Text.numberedLines text).length - fed generalizing fed with
  | zero =>
    rw [checkpointsFrom, hk] at h
    cases h
  | succ k ih =>
    have hlt : fed < (Text.numberedLines text).length := by omega
    rw [job.checkpointsFrom_cons task text hlt] at h
    by_cases hlooks : job.LooksAfter task text fed
    · rw [if_pos hlooks, List.cons.injEq] at h
      obtain ⟨rfl, hrest⟩ := h
      exact ⟨hlt, hlooks, hrest⟩
    · rw [if_neg hlooks] at h
      exact ih h (by omega)

/-- At a match for which there is no room, the records in hand are the first `cap`
matches of the full parse, and there are more. -/
theorem haulOf_eq_of_overflow {found : List Record} {more : List Record}
    (hmatches : found ++ more <+: job.matchesIn task text)
    (hroom : found.length ≤ job.taskCap) (hmore : more.length ≤ 1)
    (hover : ¬ (found ++ more).length ≤ job.taskCap) :
    job.haulOf task text = ⟨found.toArray, true⟩ := by
  have hlen := hmatches.length_le
  rw [List.length_append] at hover hlen
  -- there was room before and there is none now, so the cap is met exactly
  have hfull : found.length = job.taskCap := by omega
  obtain ⟨rest, hrest⟩ := hmatches
  have htake : (job.matchesIn task text).take job.taskCap = found := by
    rw [← hrest, List.append_assoc, ← hfull, List.take_left]
  rw [haulOf, htake, decide_eq_true (by omega)]

theorem length_filter_option_le (record : Option Record) (p : Record → Bool) :
    (record.toList.filter p).length ≤ 1 := by
  refine Nat.le_trans (List.length_filter_le _ _) ?_
  cases record <;> simp

/-- Feeding the line in front of which a scan stands, given that the scan behind this
line goes on as it should. -/
theorem feed_eq_stopOf {fed : Nat} (h : fed < (Text.numberedLines text).length)
    (hroom : (job.foundAfter task text fed).length ≤ job.taskCap)
    (hnext : (job.foundAfter task text (fed + 1)).length ≤ job.taskCap →
      job.proceed false (job.scanAt task text (fed + 1)).assembler
        (job.scanAt task text (fed + 1)).found (job.scanAt task text (fed + 1)).lines
        = job.stopOf task text (job.checkpointsFrom task text (fed + 1))) :
    (match job.collect? (job.foundAfter task text fed).toArray
        ((job.scanAt task text fed).assembler.feed ((Text.numberedLines text)[fed]).1
          ((Text.numberedLines text)[fed]).2).1 with
      | none => .ended ⟨(job.foundAfter task text fed).toArray, true⟩
      | some found =>
        job.proceed false
          ((job.scanAt task text fed).assembler.feed ((Text.numberedLines text)[fed]).1
            ((Text.numberedLines text)[fed]).2).2
          found ((Text.numberedLines text).drop (fed + 1)))
      = job.stopOf task text (job.checkpointsFrom task text (fed + 1)) := by
  have hsucc := job.foundAfter_succ task text h
  rw [job.collect?_toArray _ _ hroom]
  by_cases hfit : (job.foundAfter task text (fed + 1)).length ≤ job.taskCap
  · have hafter := job.after_take_succ task text h
    rw [if_pos (by rwa [hsucc] at hfit), ← hnext hfit]
    simp only [scanAt, hafter, hsucc]
  · rw [if_neg (by rwa [hsucc] at hfit), job.checkpointsFrom_eq_nil task text (by omega), stopOf,
      job.haulOf_eq_of_overflow task text (hsucc ▸ job.foundAfter_isPrefix_matchesIn task text (fed + 1)) hroom
        (length_filter_option_le _ _) (by rwa [hsucc] at hfit)]

/-- At the end of the text. -/
theorem proceed_end (isPassed : Bool)
    (hroom : (job.foundAfter task text (Text.numberedLines text).length).length ≤ job.taskCap) :
    job.proceed isPassed (job.scanAt task text (Text.numberedLines text).length).assembler
        (job.scanAt task text (Text.numberedLines text).length).found []
      = .ended (job.haulOf task text) := by
  have hmatches := job.matchesIn_eq task text
  have hasm : (job.scanAt task text (Text.numberedLines text).length).assembler
      = (job.assemblerOf task).after (Text.numberedLines text) := by
    rw [scanAt, List.take_length]
  have hfound : (job.scanAt task text (Text.numberedLines text).length).found
      = (job.foundAfter task text (Text.numberedLines text).length).toArray := rfl
  rw [proceed, hasm, hfound, job.collect?_toArray _ _ hroom]
  by_cases hfit : (job.matchesIn task text).length ≤ job.taskCap
  · rw [if_pos (by rwa [hmatches] at hfit), ← hmatches, haulOf, List.take_of_length_le hfit,
      decide_eq_false (by omega)]
  · rw [if_neg (by rwa [hmatches] at hfit),
      job.haulOf_eq_of_overflow task text ⟨[], (List.append_nil _).trans hmatches.symm⟩ hroom
        (length_filter_option_le _ _) (by rwa [hmatches] at hfit)]

/-- **Scanning on.** From the state behind `fed` lines a scan goes to the next look
ahead of it, or to its end. -/
theorem proceed_eq_stopOf {fed : Nat} (h : fed ≤ (Text.numberedLines text).length)
    (hroom : (job.foundAfter task text fed).length ≤ job.taskCap) :
    job.proceed false (job.scanAt task text fed).assembler (job.scanAt task text fed).found
        (job.scanAt task text fed).lines
      = job.stopOf task text (job.checkpointsFrom task text fed) := by
  -- the induction is on the lines ahead; a scan only moves forward
  induction hk : (Text.numberedLines text).length - fed generalizing fed with
  | zero =>
    obtain rfl : fed = (Text.numberedLines text).length := by omega
    have hnil : job.checkpointsFrom task text (Text.numberedLines text).length = [] := by
      rw [checkpointsFrom, Nat.sub_self]
      rfl
    have hlines : (job.scanAt task text (Text.numberedLines text).length).lines = [] := by
      rw [scanAt, List.drop_length]
    rw [hnil, stopOf, hlines, job.proceed_end task text false hroom]
  | succ k ih =>
    have hlt : fed < (Text.numberedLines text).length := by omega
    have hnumber := Text.numberedLines_getElem_fst text fed hlt
    have hlines : (job.scanAt task text fed).lines
        = (Text.numberedLines text)[fed] :: (Text.numberedLines text).drop (fed + 1) := by
      rw [scanAt, List.drop_eq_getElem_cons hlt]
    rw [hlines, job.checkpointsFrom_cons task text hlt]
    by_cases hlooks : job.LooksAfter task text fed
    · rw [if_pos hlooks, stopOf, proceed, if_pos (by simp [hnumber, hlooks.1]), ← hlines]
    · have hmod : ¬ (fed + 1) % job.interval = 0 := fun hmod => hlooks ⟨hmod, hroom⟩
      rw [if_neg hlooks, proceed, if_neg (by simp [hnumber, hmod])]
      exact job.feed_eq_stopOf task text hlt hroom fun hfit => ih (by omega) hfit (by omega)

/-- **Resuming.** Behind a look the scan goes to the next one, or to its end. -/
theorem resume_scanAt {fed : Nat} (h : fed < (Text.numberedLines text).length)
    (hroom : (job.foundAfter task text fed).length ≤ job.taskCap) :
    job.resume (job.scanAt task text fed)
      = job.stopOf task text (job.checkpointsFrom task text (fed + 1)) := by
  have hlines : (job.scanAt task text fed).lines
      = (Text.numberedLines text)[fed] :: (Text.numberedLines text).drop (fed + 1) := by
    rw [scanAt, List.drop_eq_getElem_cons h]
  rw [resume, hlines, proceed, if_neg (by simp)]
  exact job.feed_eq_stopOf task text h hroom fun hfit =>
    job.proceed_eq_stopOf task text (by omega) hfit

/-- **Starting.** A scan goes to its first look, or to its end. -/
theorem start_eq :
    job.start task text = job.stopOf task text (job.checkpoints task text) := by
  have hproceed : job.proceed false (job.assemblerOf task) #[] (Text.numberedLines text)
      = job.stopOf task text (job.checkpoints task text) :=
    job.proceed_eq_stopOf task text (Nat.zero_le _) (Nat.zero_le _)
  -- an empty text is not scanned at all, which comes to the same as scanning no lines
  by_cases hempty : text.isEmpty = true
  · have hlines : Text.numberedLines text = [] := by
      rw [String.isEmpty_iff] at hempty
      rw [hempty, Text.numberedLines, Text.numberedFrom, if_pos (by simp)]
    rw [← hproceed, start, if_pos hempty, hlines]
    rfl
  · rw [← hproceed, start, if_neg hempty]
    rfl

end Scanning

/-! ## Hauls and matches -/

theorem keptOf_isPrefix (job : Job) (task : Task) : job.keptOf task <+: job.matchesOf task :=
  List.take_prefix _ _

section Haul

variable {job : Job} {task : Task} {text : String}
variable (ht : task.resolve job.environment.hasZstd = .ok text)

include ht

theorem haulOf_records : (job.haulOf task text).records.toList = job.keptOf task := by
  rw [keptOf, matchesOf_of_resolve ht, haulOf]

theorem haulOf_size : (job.haulOf task text).records.size = (job.keptOf task).length := by
  rw [← job.haulOf_records ht, Array.length_toList]

/-- A haul says that there is more exactly if the log holds more. -/
theorem haulOf_isCapped :
    (job.haulOf task text).isCapped
      = decide ((job.keptOf task).length < (job.matchesOf task).length) := by
  rw [keptOf, matchesOf_of_resolve ht, haulOf, List.length_take, decide_eq_decide]
  omega

end Haul

end LogSearch.Search.Job
