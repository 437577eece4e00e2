/-
What a search by one worker answers.

The caps interact at their ends: a log may hold exactly as many matches as it may
hand over or one more, a haul may fit exactly or miss by one, and a log that
cannot be read may stand between two that can. The invariant `Job.Tallied` keeps
all of this in one place. It holds of the tour as long as nothing was cut at the
limit, and says what the sink and the counters are in terms of the logs so far.
Then a haul either fits, and the invariant goes on (`Tallied.handOver`), or it
does not, and the answer is settled whatever logs follow (`answers_of_overflow`).

The main statement is `run_alone`. Its first half is about every search by one
worker, also one that the limit ends; only the counters need a search that is not
ended.
-/
import LogSearch.Proofs.Search.Tour

set_option autoImplicit false

namespace LogSearch.Search

namespace Job

variable (job : Job)

/-- The failure of a log that cannot be read. -/
def failureOf (task : Task) : Option Failure :=
  match task.resolve job.environment.hasZstd with
  | .ok _ => none
  | .error e => some ⟨task.source, e.message⟩

/-! ## Hauls and matches -/

/-- The logs hand over no more than they hold. -/
theorem length_flatMap_keptOf_le (tasks : List Task) :
    (tasks.flatMap job.keptOf).length ≤ (tasks.flatMap job.matchesOf).length := by
  induction tasks with
  | nil => exact Nat.le_refl _
  | cons task tasks ih =>
    have hle := (job.keptOf_isPrefix task).length_le
    rw [List.flatMap_cons, List.flatMap_cons, List.length_append, List.length_append]
    omega

/-! ## The invariant of a tour -/

/-- What holds when the logs `done` are behind and nothing was cut at the limit. -/
structure Tallied (limit : Int) (done : List Task) (p : Progress Results) : Prop where
  isUp : p.signal.isUp = false
  isFull : p.isFull = false
  room : p.sink.records.size ≤ limit.toNat
  records : p.sink.records.toList = done.flatMap job.keptOf
  isCapped : p.sink.isCapped = true
    ↔ (done.flatMap job.keptOf).length < (done.flatMap job.matchesOf).length
  counted : p.completed + p.failures.size = done.length
  matched : p.matched = (done.flatMap job.keptOf).length
  failures : p.failures.toList = done.filterMap job.failureOf

/-- What holds at the end of a search through the logs `tasks`. -/
structure Answers (limit : Int) (tasks : List Task) (p : Progress Results) : Prop where
  records : p.sink.records.toList = (tasks.flatMap job.keptOf).take limit.toNat
  isCapped : p.sink.isCapped = true
    ↔ p.sink.records.size < (tasks.flatMap job.matchesOf).length
  tally : p.isFull = false → job.Tallied limit tasks p

variable {job} {limit : Int} {done : List Task} {p : Progress Results}

theorem Tallied.size_eq (h : job.Tallied limit done p) :
    p.sink.records.size = (done.flatMap job.keptOf).length := by
  rw [← h.records, Array.length_toList]

/-- A tour that has met no limit has found everything in the hauls. -/
theorem Tallied.answers (h : job.Tallied limit done p) : job.Answers limit done p where
  records := by rw [List.take_of_length_le (h.size_eq ▸ h.room), h.records]
  isCapped := by rw [h.size_eq, h.isCapped]
  tally _ := h

/-- Looks at a clear signal do not matter. -/
theorem Tallied.wait (h : job.Tallied limit done p) (n : Nat) :
    job.Tallied limit done (p.wait n) :=
  ⟨h.isUp, h.isFull, h.room, h.records, h.isCapped, h.counted, h.matched, h.failures⟩

/-- A log that cannot be read leaves a failure and nothing else. -/
theorem Tallied.fail {task : Task} {e : Payload.Error} (h : job.Tallied limit done p)
    (he : task.resolve job.environment.hasZstd = .error e) :
    job.Tallied limit (done ++ [task]) (p.fail ⟨task.source, e.message⟩) := by
  have hmatches : job.matchesOf task = [] := matchesOf_of_error he
  have hkept : job.keptOf task = [] := by rw [keptOf, hmatches, List.take_nil]
  have hfailure : job.failureOf task = some ⟨task.source, e.message⟩ := by rw [failureOf, he]
  have hallKept : (done ++ [task]).flatMap job.keptOf = done.flatMap job.keptOf := by
    simp [hkept]
  have hallMatches : (done ++ [task]).flatMap job.matchesOf = done.flatMap job.matchesOf := by
    simp [hmatches]
  refine ⟨h.isUp, h.isFull, h.room, ?_, ?_, ?_, ?_, ?_⟩
  · rw [hallKept]; exact h.records
  · rw [hallKept, hallMatches]; exact h.isCapped
  · have hcount := h.counted
    simp only [Progress.fail, Array.size_push, List.length_append, List.length_singleton]
    omega
  · rw [hallKept]; exact h.matched
  · simp [Progress.fail, h.failures, hfailure]

/-! ## Handing over a log -/

section HandOver

variable {task : Task} {text : String}

/-- Whether a haul fits, in terms of the logs. -/
theorem Tallied.overflows_iff (h : job.Tallied limit done p)
    (ht : task.resolve job.environment.hasZstd = .ok text) :
    p.Overflows limit (job.haulOf task text)
      ↔ limit.toNat < ((done ++ [task]).flatMap job.keptOf).length := by
  rw [Progress.Overflows, h.size_eq, job.haulOf_size ht, List.flatMap_append,
    List.length_append, List.flatMap_singleton]

/-- The records behind a haul, whether it fits or not. -/
theorem Tallied.records_handOver (h : job.Tallied limit done p)
    (ht : task.resolve job.environment.hasZstd = .ok text) :
    (p.handOver (Results.sink limit) task.source (job.haulOf task text)).sink.records.toList
      = ((done ++ [task]).flatMap job.keptOf).take limit.toNat := by
  rw [Progress.handOver_records limit _ _ p h.room, h.records, job.haulOf_records ht,
    List.flatMap_append, List.flatMap_singleton]

/-- A haul that fits. -/
theorem Tallied.handOver (h : job.Tallied limit done p)
    (ht : task.resolve job.environment.hasZstd = .ok text)
    (hfits : ¬ p.Overflows limit (job.haulOf task text)) :
    job.Tallied limit (done ++ [task])
      (p.handOver (Results.sink limit) task.source (job.haulOf task text)) := by
  have hlen := mt (h.overflows_iff ht).mpr hfits
  have hkeptLe := job.length_flatMap_keptOf_le done
  have htaskLe := (job.keptOf_isPrefix task).length_le
  have hfailure : job.failureOf task = none := by rw [failureOf, ht]
  refine ⟨?_, ?_, Progress.handOver_room limit _ _ p h.room, ?_, ?_, ?_, ?_, ?_⟩
  · rw [Progress.handOver_signal limit _ _ p h.room, if_neg hfits]
    exact h.isUp
  · rw [Progress.handOver_isFull limit _ _ p h.room, h.isFull]
    simp [hfits]
  · rw [h.records_handOver ht, List.take_of_length_le (by omega)]
  · -- some log so far holds more than it handed over: an earlier one, or this one
    rw [Progress.handOver_isCapped limit _ _ p h.room, job.haulOf_isCapped ht]
    simp only [hfits, decide_false, Bool.or_false, Bool.or_eq_true, h.isCapped,
      decide_eq_true_eq, List.flatMap_append, List.flatMap_singleton, List.length_append]
    omega
  · have hcount := h.counted
    rw [Progress.handOver_completed, Progress.handOver_failures, List.length_append,
      List.length_singleton]
    omega
  · rw [Progress.handOver_matched, h.matched, job.haulOf_size ht, List.flatMap_append,
      List.length_append, List.flatMap_singleton]
  · rw [Progress.handOver_failures, h.failures, List.filterMap_append]
    simp [hfailure]

/-- A haul that does not fit settles the answer, whatever logs follow. -/
theorem Tallied.answers_of_overflow (h : job.Tallied limit done p)
    (ht : task.resolve job.environment.hasZstd = .ok text)
    (hover : p.Overflows limit (job.haulOf task text)) (tasks : List Task) :
    job.Answers limit (done ++ task :: tasks)
      (p.handOver (Results.sink limit) task.source (job.haulOf task text)) := by
  have hlen := (h.overflows_iff ht).mp hover
  have hall (f : Task → List Record) : (done ++ task :: tasks).flatMap f
      = (done ++ [task]).flatMap f ++ tasks.flatMap f := by simp
  have hrecords : (p.handOver (Results.sink limit) task.source
        (job.haulOf task text)).sink.records.toList
      = ((done ++ task :: tasks).flatMap job.keptOf).take limit.toNat := by
    rw [h.records_handOver ht, hall, List.take_append_of_le_length (by omega)]
  have hsize : (p.handOver (Results.sink limit) task.source
      (job.haulOf task text)).sink.records.size = limit.toNat := by
    rw [← Array.length_toList, h.records_handOver ht, List.length_take]
    omega
  -- what the logs hold is at least what they hand over, and this is too much already
  have hmore : limit.toNat < ((done ++ task :: tasks).flatMap job.matchesOf).length := by
    have hle := job.length_flatMap_keptOf_le (done ++ task :: tasks)
    rw [hall job.keptOf, List.length_append] at hle
    omega
  refine ⟨hrecords, ?_, ?_⟩
  · rw [Progress.handOver_isCapped limit _ _ p h.room, hsize]
    simp only [hover, decide_true, Bool.or_true, Bool.true_or, true_iff]
    exact hmore
  · intro hfull
    rw [Progress.handOver_isFull limit _ _ p h.room] at hfull
    simp [hover] at hfull

end HandOver

/-- **The end of a tour.** Whatever logs lie ahead, a tour gets to an end that answers
for all of them. -/
theorem Tallied.answers_tour (h : job.Tallied limit done p) (tasks : List Task) :
    job.Answers limit (done ++ tasks) (job.tour (Results.sink limit) tasks p) := by
  induction tasks generalizing done p with
  | nil =>
    rw [List.append_nil, tour]
    exact h.answers
  | cons task tasks ih =>
    have hsplit : done ++ task :: tasks = (done ++ [task]) ++ tasks := by simp
    cases hresolve : task.resolve job.environment.hasZstd with
    | error e =>
      rw [job.tour_error _ tasks p hresolve, hsplit]
      exact ih (h.fail hresolve)
    | ok text =>
      rw [job.tour_ok _ tasks p hresolve, Progress.handOver_signal limit _ _ p h.room]
      by_cases hover : p.Overflows limit (job.haulOf task text)
      · -- the tour ends here, and the logs behind this one are left out
        have hraised : p.signal.raise.isUp = true := rfl
        rw [if_pos hover, if_pos hraised]
        exact h.answers_of_overflow hresolve hover tasks
      · rw [if_neg hover, h.isUp, hsplit]
        exact ih (h.handOver hresolve hover)

/-- Nothing is tallied at the start. -/
theorem tallied_start (job : Job) (limit : Int) {signal : Signal} (hup : signal.isUp = false) :
    job.Tallied limit [] { signal, sink := {} } := by
  refine ⟨hup, rfl, Nat.zero_le _, rfl, ?_, rfl, rfl, rfl⟩
  simp

/-- A search by one worker ends with answers for all its logs. -/
theorem run_eq_ending_of_alone (job : Job) (limit : Int) (tasks : List Task)
    (alone : workerCount job.environment job.settings tasks.length = 1)
    (paced : 1 ≤ job.settings.taskBatchSize) :
    ∃ q : Progress Results,
      run job (Results.sink limit) {} {} tasks = q.ending tasks ∧ job.Answers limit tasks q := by
  refine ⟨_, run_eq_tour job (Results.sink limit) tasks alone paced {}, ?_⟩
  exact (job.tallied_start limit rfl).answers_tour tasks

end Job

/-! ## The search -/

/-- **The search of one worker.** With one worker and nothing that calls it off, a search
is reported on, and it leaves the hauls of all logs one after the other, cut at the
limit. Records count as left out exactly if there are fewer than the logs hold. If the
sink did not end the search, every log was handed over or has failed, in order. And
how often a scan waits for others has no influence on any of this. -/
theorem run_alone (job : Job) (limit : Int) (tasks : List Task)
    (alone : workerCount job.environment job.settings tasks.length = 1)
    (paced : 1 ≤ job.settings.taskBatchSize) :
    ∃ summary,
      (run job (Results.sink limit) {} {} tasks).report = .ok summary
      ∧ (run job (Results.sink limit) {} {} tasks).sink.records.toList
        = (tasks.flatMap job.keptOf).take limit.toNat
      ∧ ((run job (Results.sink limit) {} {} tasks).sink.isCapped = true
        ↔ (run job (Results.sink limit) {} {} tasks).sink.records.size
          < (tasks.flatMap job.matchesOf).length)
      ∧ (summary.isFull = false →
        summary.total = tasks.length
        ∧ summary.completed + summary.failures.length = summary.total
        ∧ summary.matched = (tasks.flatMap job.keptOf).length
        ∧ summary.failures = tasks.filterMap job.failureOf)
      ∧ ∀ interval, run (job.withInterval interval) (Results.sink limit) {} {} tasks
        = run job (Results.sink limit) {} {} tasks := by
  obtain ⟨q, hq, hrecords, hcapped, htally⟩ := job.run_eq_ending_of_alone limit tasks alone paced
  have hinterval (interval : Int) : run (job.withInterval interval) (Results.sink limit) {} {} tasks
      = run job (Results.sink limit) {} {} tasks := by
    rw [run_eq_tour job _ tasks alone paced, run_eq_tour (job.withInterval interval) _ tasks alone
      paced, job.tour_withInterval]
  simp only [hinterval, hq, Progress.ending]
  -- a search through no logs reports without having had a worker
  by_cases hempty : tasks.isEmpty = true
  · obtain rfl : tasks = [] := List.isEmpty_iff.mp hempty
    rw [if_pos hempty]
    exact ⟨_, rfl, hrecords, hcapped, fun _ => ⟨rfl, rfl, rfl, rfl⟩, fun _ => trivial⟩
  · rw [if_neg hempty]
    refine ⟨_, rfl, hrecords, hcapped, fun hfull => ?_, fun _ => trivial⟩
    have h := htally hfull
    refine ⟨rfl, ?_, h.matched, h.failures⟩
    rw [Array.length_toList]
    exact h.counted

/-- A search for the letter `a` by one worker, with at most one record of a log. -/
def soloJob : Job where
  criteria := { expression := .keyword "a" }
  settings := { perTaskMaxResults := 1, maxWorkers := 1, lineYieldInterval := 2 }
  environment := { currentYear := 2031, processors := some 4 }

/-- A log with two records, a log that cannot be read, and a log with one record. -/
def soloTasks : List Task :=
  [.text "x" "2024-01-02 03:04:05 a\nb\n2024-01-02 03:04:06 a\n", .file "y.zst" [0],
    .text "z" "2024-01-02 03:04:07 a\n"]

/-- A search that ends with all three logs accounted for. -/
theorem run_alone_soloTasks :
    workerCount soloJob.environment soloJob.settings soloTasks.length = 1
      ∧ 1 ≤ soloJob.settings.taskBatchSize
      ∧ ∃ summary, (run soloJob (Results.sink 2) {} {} soloTasks).report = .ok summary
        ∧ (summary.isFull = false → summary.completed + summary.failures.length = 3) := by
  obtain ⟨summary, hreport, -, -, htally, -⟩ := run_alone soloJob 2 soloTasks (by decide) (by decide)
  refine ⟨by decide, by decide, summary, hreport, fun hfull => ?_⟩
  obtain ⟨htotal, hcounted, -, -⟩ := htally hfull
  rw [hcounted, htotal]
  rfl

end LogSearch.Search
