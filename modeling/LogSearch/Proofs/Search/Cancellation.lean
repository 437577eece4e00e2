/-
Searches that are called off.

A signal may be raised from outside at any moment, but a worker only sees it at its
looks: in front of a log, at a checkpoint within one, and behind a log. `Job.looks`
lists these places for a search that runs to its end. Calling a search off at its
`k`-th look leaves exactly what was found by then, `Job.foundBy`: the hauls of the
logs that are behind, and of the log that is being scanned the matches among the
records that feeding has completed.

`Worker.leaves_ready` proves this by induction on the logs ahead. Its one surprise is the
limit. A search that the sink ends makes fewer looks than the list has, so the
`k`-th entry may be a place that is never reached; but everything found later starts
with what was found by then, and this is already longer than the limit.

`run_cancelled` reads the promises of a cancelled search off the formula.
-/
import LogSearch.Proofs.Search.Alone

set_option autoImplicit false

namespace LogSearch.Search

/-- A place at which a worker alone looks at the signal. -/
structure Look where
  /-- The logs that are behind. -/
  done : List Task
  /-- The log that is being scanned, if the place is within one, with its text and the
  number of lines that have been fed. -/
  scanned : Option (Task × String × Nat)
deriving DecidableEq

namespace Job

/-- The looks of a search that has the logs `done` behind it. -/
def looksFrom (job : Job) (done : List Task) : List Task → List Look
  | [] => []
  | task :: tasks =>
    ⟨done, none⟩ ::
      match task.resolve job.environment.hasZstd with
      | .error _ => job.looksFrom (done ++ [task]) tasks
      | .ok text =>
        (job.checkpoints task text).map (fun fed => ⟨done, some (task, text, fed)⟩)
          ++ ⟨done ++ [task], none⟩ :: job.looksFrom (done ++ [task]) tasks

/-- The looks of a search, in order. -/
def looks (job : Job) (tasks : List Task) : List Look :=
  job.looksFrom [] tasks

/-- What has been found at a look. Of a log that is being scanned this is what feeding has
completed; its open record is not among it. -/
def foundBy (job : Job) (look : Look) : List Record :=
  look.done.flatMap job.keptOf ++
    match look.scanned with
    | none => []
    | some (task, text, fed) => job.foundAfter task text fed

/-- What has been found at a look, or in the end if there is no such look. -/
def foundByOr (job : Job) (tasks : List Task) (look? : Option Look) : List Record :=
  look?.elim (tasks.flatMap job.keptOf) job.foundBy

section Looks

variable {job : Job} {done tasks : List Task} {task : Task}

theorem looksFrom_error {e : Payload.Error}
    (he : task.resolve job.environment.hasZstd = .error e) :
    job.looksFrom done (task :: tasks)
      = ⟨done, none⟩ :: job.looksFrom (done ++ [task]) tasks := by
  rw [looksFrom, he]

theorem looksFrom_ok {text : String} (ht : task.resolve job.environment.hasZstd = .ok text) :
    job.looksFrom done (task :: tasks)
      = ⟨done, none⟩ ::
        ((job.checkpoints task text).map (fun fed => ⟨done, some (task, text, fed)⟩)
          ++ ⟨done ++ [task], none⟩ :: job.looksFrom (done ++ [task]) tasks) := by
  rw [looksFrom, ht]

/-! ## The checkpoints of a scan -/

/-- Checkpoints come in the order of the lines. -/
theorem pairwise_checkpoints (job : Job) (task : Task) (text : String) :
    (job.checkpoints task text).Pairwise (· < ·) :=
  (List.pairwise_lt_range').filter _

/-- A line whose number is a multiple of the interval is a checkpoint if a later line is. -/
theorem mem_checkpoints_of_le {text : String} {fed m : Nat}
    (hfed : fed ∈ job.checkpoints task text) (hpos : 0 < m) (hle : m ≤ fed)
    (hmod : m % job.interval = 0) : m - 1 ∈ job.checkpoints task text := by
  obtain ⟨hlt, -, hroom⟩ := mem_checkpoints.mp hfed
  have hprefix := (job.foundAfter_isPrefix task text (show m - 1 ≤ fed by omega)).length_le
  refine mem_checkpoints.mpr ⟨by omega, ?_, by omega⟩
  rwa [Nat.sub_add_cancel hpos]

/-! ## Where a look can be -/

/-- At any look some first logs are behind, and a log that is being scanned is the next
one. -/
theorem of_mem_looksFrom {look : Look} (h : look ∈ job.looksFrom done tasks) :
    ∃ more rest, look.done = done ++ more ∧ tasks = more ++ rest
      ∧ ∀ task text fed, look.scanned = some (task, text, fed) →
        rest.head? = some task ∧ task.resolve job.environment.hasZstd = .ok text
          ∧ fed ∈ job.checkpoints task text := by
  -- a look is one at the first log, or a later one with this log behind it
  induction tasks generalizing done with
  | nil => cases h
  | cons task tasks ih =>
    have hlater (h : look ∈ job.looksFrom (done ++ [task]) tasks) :
        ∃ more rest, look.done = done ++ more ∧ task :: tasks = more ++ rest
          ∧ ∀ task text fed, look.scanned = some (task, text, fed) →
            rest.head? = some task ∧ task.resolve job.environment.hasZstd = .ok text
              ∧ fed ∈ job.checkpoints task text := by
      obtain ⟨more, rest, hdone, hrest, hscanned⟩ := ih h
      exact ⟨task :: more, rest, by simp [hdone], by simp [hrest], hscanned⟩
    cases hresolve : task.resolve job.environment.hasZstd with
    | error e =>
      rw [looksFrom_error hresolve] at h
      rcases List.mem_cons.mp h with rfl | h
      · exact ⟨[], task :: tasks, by simp, rfl, by simp⟩
      · exact hlater h
    | ok text =>
      rw [looksFrom_ok hresolve] at h
      rcases List.mem_cons.mp h with rfl | h
      · exact ⟨[], task :: tasks, by simp, rfl, by simp⟩
      rcases List.mem_append.mp h with h | h
      · obtain ⟨fed, hfed, rfl⟩ := List.mem_map.mp h
        refine ⟨[], task :: tasks, by simp, rfl, ?_⟩
        rintro _ _ _ ⟨⟩
        exact ⟨rfl, hresolve, hfed⟩
      rcases List.mem_cons.mp h with rfl | h
      · exact ⟨[task], tasks, rfl, rfl, by simp⟩
      · exact hlater h

/-- Whether in front of each look within a log all earlier checkpoints of this log have been
looked at. -/
def Consecutive (job : Job) (looks : List Look) : Prop :=
  ∀ n behind task text fed, looks[n]? = some ⟨behind, some (task, text, fed)⟩ →
    ∀ i ∈ job.checkpoints task text, i < fed →
      ⟨behind, some (task, text, i)⟩ ∈ looks.take n

theorem Consecutive.append {xs ys : List Look} (hxs : job.Consecutive xs)
    (hys : job.Consecutive ys) : job.Consecutive (xs ++ ys) := by
  intro n behind task text fed h i hi hlt
  rw [List.take_append]
  by_cases hn : n < xs.length
  · rw [List.getElem?_append_left hn] at h
    exact List.mem_append_left _ (hxs n behind task text fed h i hi hlt)
  · rw [List.getElem?_append_right (Nat.le_of_not_lt hn)] at h
    exact List.mem_append_right _ (hys _ behind task text fed h i hi hlt)

theorem consecutive_singleton (done : List Task) : job.Consecutive [⟨done, none⟩] := by
  intro n behind task text fed h
  have hmem := List.mem_of_getElem? h
  simp at hmem

theorem consecutive_map_checkpoints (job : Job) (done : List Task) (task : Task) (text : String) :
    job.Consecutive
      ((job.checkpoints task text).map fun fed => ⟨done, some (task, text, fed)⟩) := by
  rintro n behind scanned text' fed h i hi hlt
  rw [List.getElem?_map, Option.map_eq_some_iff] at h
  obtain ⟨fed', hn, ⟨⟩⟩ := h
  obtain ⟨hnlt, hfed⟩ := List.getElem?_eq_some_iff.mp hn
  obtain ⟨j, hjlt, hj⟩ := List.mem_iff_getElem.mp hi
  -- checkpoints increase, so the smaller one stands further to the front
  have hjn : j < n := by
    refine Nat.lt_of_not_le fun hle => ?_
    rcases Nat.lt_or_eq_of_le hle with hlt' | rfl
    · have := List.pairwise_iff_getElem.mp (job.pairwise_checkpoints task text) n j hnlt hjlt hlt'
      omega
    · omega
  rw [← List.map_take]
  refine List.mem_map.mpr ⟨i, ?_, rfl⟩
  exact List.mem_take_iff_getElem.mpr ⟨j, by omega, hj⟩

theorem consecutive_looksFrom : job.Consecutive (job.looksFrom done tasks) := by
  induction tasks generalizing done with
  | nil => intro n behind task text fed h; cases h
  | cons task tasks ih =>
    cases hresolve : task.resolve job.environment.hasZstd with
    | error e =>
      rw [looksFrom_error hresolve]
      exact (consecutive_singleton done).append ih
    | ok text =>
      rw [looksFrom_ok hresolve]
      exact (consecutive_singleton done).append
        ((job.consecutive_map_checkpoints done task text).append
          ((consecutive_singleton (done ++ [task])).append ih))

/-! ## What has been found at a look -/

/-- What has been found at a look is a prefix of what is found in the end. -/
theorem foundBy_isPrefix {look : Look} (h : look ∈ job.looksFrom done tasks) :
    job.foundBy look <+: (done ++ tasks).flatMap job.keptOf := by
  obtain ⟨more, rest, hdone, rfl, hscanned⟩ := of_mem_looksFrom h
  have hall : (done ++ (more ++ rest)).flatMap job.keptOf
      = (done ++ more).flatMap job.keptOf ++ rest.flatMap job.keptOf := by
    rw [← List.append_assoc, List.flatMap_append]
  rw [foundBy, hdone, hall]
  refine (List.prefix_append_right_inj _).mpr ?_
  split
  · exact List.nil_prefix
  · rename_i task text fed heq
    obtain ⟨hhead, hresolve, hfed⟩ := hscanned task text fed heq
    obtain ⟨rest', rfl⟩ := List.head?_eq_some_iff.mp hhead
    rw [List.flatMap_cons]
    exact (foundAfter_isPrefix_keptOf hresolve hfed).trans (List.prefix_append _ _)

/-- What the logs behind have handed over has been found at every later look. -/
theorem isPrefix_foundBy {look : Look} (h : look ∈ job.looksFrom done tasks) :
    done.flatMap job.keptOf <+: job.foundBy look := by
  obtain ⟨more, rest, hdone, -, -⟩ := of_mem_looksFrom h
  rw [foundBy, hdone, List.flatMap_append, List.append_assoc]
  exact List.prefix_append _ _

/-- Once the logs behind hold more than the limit admits, no look from there on makes a
difference. -/
theorem take_foundByOr {limit : Nat} (hover : limit < (done.flatMap job.keptOf).length)
    (n : Nat) :
    (job.foundByOr (done ++ tasks) (⟨done, none⟩ :: job.looksFrom done tasks)[n]?).take limit
      = (done.flatMap job.keptOf).take limit := by
  have hprefix : done.flatMap job.keptOf
      <+: job.foundByOr (done ++ tasks) (⟨done, none⟩ :: job.looksFrom done tasks)[n]? := by
    cases hlook : (⟨done, none⟩ :: job.looksFrom done tasks : List Look)[n]? with
    | none =>
      rw [foundByOr, Option.elim_none, List.flatMap_append]
      exact List.prefix_append _ _
    | some look =>
      rcases List.mem_cons.mp (List.mem_of_getElem? hlook) with rfl | hmem
      · exact List.prefix_append _ _
      · exact isPrefix_foundBy hmem
  obtain ⟨more, hmore⟩ := hprefix
  rw [← hmore, List.take_append_of_le_length (by omega)]

end Looks

end Job

/-! ## The search -/

/-- Whether a worker gets to its end, where the sink holds these records up to its limit. -/
def Worker.Leaves (job : Job) (limit : Int) (w : Worker) (p : Progress Results)
    (records : List Record) : Prop :=
  ∃ q, w.run job (Results.sink limit) p = (finished, q)
    ∧ q.sink.records.toList = records.take limit.toNat

section Cut

variable {job : Job} {limit : Int} {done tasks : List Task} {p : Progress Results} {k : Nat}
variable {task : Task} {text : String}

/-- A worker whose scan is stopped hands over what it holds, and gets to its end. -/
theorem Worker.leaves_holding_up {source : String} {haul : Haul}
    (room : p.sink.records.size ≤ limit.toNat) (hup : p.signal.isUp = true) :
    (holding source haul tasks).Leaves job limit p
      (p.sink.records.toList ++ haul.records.toList) := by
  have hnot : ¬ (p.handOver (Results.sink limit) source haul).signal.ClearFor 1 := by
    intro hclear
    have hstill := p.handOver_isUp source haul (Results.sink limit) hup
    rw [hclear.1] at hstill
    cases hstill
  rw [Leaves, run_holding, run_behind_up job _ tasks hnot]
  exact ⟨_, rfl, Progress.handOver_records limit source haul p room⟩

/-- A worker whose scan is stopped at a checkpoint leaves what feeding has completed, and
gets to its end. -/
theorem Worker.leaves_start_stopped {i : Nat} (hi : i < (job.checkpoints task text).length)
    (hclear : p.signal.ClearFor i) (hup : ¬ p.signal.ClearFor (i + 1))
    (room : p.sink.records.size ≤ limit.toNat) :
    (ofStop task.source tasks (job.start task text)).Leaves job limit p
      (p.sink.records.toList ++ job.foundAfter task text (job.checkpoints task text)[i]) := by
  have hstopped : ¬ (p.wait i).signal.ClearFor 1 := fun h => hup (Signal.ClearFor.of_wait h)
  have hlook : (p.wait i).look.2.signal.isUp = true := Progress.look_of_not_clear hstopped
  rw [Leaves, run_start_cut job _ task text tasks hi hclear hup]
  exact leaves_holding_up room hlook

/-- What the sink of a tallied search holds is what has been found at a look behind its logs. -/
theorem Job.Tallied.records_eq_foundBy (h : job.Tallied limit done p) :
    p.sink.records.toList = (job.foundBy ⟨done, none⟩).take limit.toNat := by
  rw [h.answers.records, Job.foundBy, List.append_nil]

/-- A worker behind a log: it stops there, or goes on to the logs ahead. -/
theorem Worker.leaves_behind (paced : 1 ≤ job.settings.taskBatchSize)
    (h : job.Tallied limit done p) (hraised : p.signal.raisedAt = some k)
    (hready : (ready tasks).Leaves job limit (p.wait 1)
      (job.foundByOr (done ++ tasks)
        (job.looksFrom done tasks)[k - 1 - (p.signal.looks + 1)]?)) :
    (behind tasks).Leaves job limit p
      (job.foundByOr (done ++ tasks)
        (⟨done, none⟩ :: job.looksFrom done tasks)[k - 1 - p.signal.looks]?) := by
  have hclear : p.signal.ClearFor 1 ↔ p.signal.looks + 1 < k := Signal.clearFor_iff h.isUp hraised
  by_cases hnext : p.signal.ClearFor 1
  · have hindex : k - 1 - p.signal.looks = (k - 1 - (p.signal.looks + 1)) + 1 := by
      rw [hclear] at hnext
      omega
    rw [Leaves, run_behind_clear job _ tasks paced hnext, hindex, List.getElem?_cons_succ]
    exact hready
  · have hindex : k - 1 - p.signal.looks = 0 := by
      rw [hclear] at hnext
      omega
    rw [Leaves, run_behind_up job _ tasks hnext, hindex, List.getElem?_cons_zero]
    exact ⟨p.look.2, rfl, h.records_eq_foundBy⟩

/-- A worker that holds the haul of a log: the limit ends the search, or the worker goes on to
the logs ahead as it would in a search that nobody calls off. -/
theorem Worker.leaves_holding (paced : 1 ≤ job.settings.taskBatchSize)
    (h : job.Tallied limit done p) (hraised : p.signal.raisedAt = some k)
    (hresolve : task.resolve job.environment.hasZstd = .ok text)
    (hready : ∀ q : Progress Results, job.Tallied limit (done ++ [task]) q →
      q.signal.raisedAt = some k → (ready tasks).Leaves job limit q
        (job.foundByOr ((done ++ [task]) ++ tasks)
          (job.looksFrom (done ++ [task]) tasks)[k - 1 - q.signal.looks]?)) :
    (holding task.source (job.haulOf task text) tasks).Leaves job limit p
      (job.foundByOr ((done ++ [task]) ++ tasks)
        (⟨done ++ [task], none⟩ :: job.looksFrom (done ++ [task]) tasks)[
          k - 1 - p.signal.looks]?) := by
  have hsignal := Progress.handOver_signal limit task.source (job.haulOf task text) p h.room
  rw [Leaves, run_holding]
  by_cases hover : p.Overflows limit (job.haulOf task text)
  · -- the sink puts up the signal, and later looks make no difference
    rw [if_pos hover] at hsignal
    have hnot : ¬ (p.handOver (Results.sink limit) task.source
        (job.haulOf task text)).signal.ClearFor 1 := by
      intro hclear
      rw [hsignal] at hclear
      cases hclear.1
    rw [run_behind_up job _ tasks hnot, Job.take_foundByOr ((h.overflows_iff hresolve).mp hover)]
    exact ⟨_, rfl, h.records_handOver hresolve⟩
  · rw [if_neg hover] at hsignal
    have hbehind := h.handOver hresolve hover
    rw [← hsignal]
    rw [← hsignal] at hraised
    exact leaves_behind paced hbehind hraised (hready _ (hbehind.wait 1) hraised)

/-- A worker that starts the scan of a log: the scan stops at a checkpoint, or the worker gets
to hold the haul of the log. -/
theorem Worker.leaves_start (paced : 1 ≤ job.settings.taskBatchSize)
    (h : job.Tallied limit done p) (hraised : p.signal.raisedAt = some k)
    (hlooks : p.signal.looks < k) (hresolve : task.resolve job.environment.hasZstd = .ok text)
    (hready : ∀ q : Progress Results, job.Tallied limit (done ++ [task]) q →
      q.signal.raisedAt = some k → (ready tasks).Leaves job limit q
        (job.foundByOr ((done ++ [task]) ++ tasks)
          (job.looksFrom (done ++ [task]) tasks)[k - 1 - q.signal.looks]?)) :
    (ofStop task.source tasks (job.start task text)).Leaves job limit p
      (job.foundByOr ((done ++ [task]) ++ tasks)
        ((job.checkpoints task text).map (fun fed => ⟨done, some (task, text, fed)⟩)
          ++ ⟨done ++ [task], none⟩ :: job.looksFrom (done ++ [task]) tasks)[
            k - 1 - p.signal.looks]?) := by
  have hclear (n : Nat) : p.signal.ClearFor n ↔ p.signal.looks + n < k :=
    Signal.clearFor_iff h.isUp hraised
  by_cases hwithin : k - 1 - p.signal.looks < (job.checkpoints task text).length
  · -- a checkpoint within the log finds the signal up
    obtain ⟨q, hq, hqrecords⟩ := leaves_start_stopped hwithin
      ((hclear _).mpr (by omega)) (by rw [hclear]; omega) h.room
    refine ⟨q, hq, hqrecords.trans ?_⟩
    rw [List.getElem?_append_left (by rwa [List.length_map]), List.getElem?_map,
      List.getElem?_eq_getElem hwithin, Option.map_some, Job.foundByOr, Option.elim_some,
      Job.foundBy, h.records]
  · -- the scan gets to its end, with its looks behind it
    have hscan : p.signal.ClearFor (job.checkpoints task text).length := by
      rw [hclear]
      omega
    have hscanned := h.wait (job.checkpoints task text).length
    have hindex : k - 1 - p.signal.looks - (job.checkpoints task text).length
        = k - 1 - (p.wait (job.checkpoints task text).length).signal.looks := by
      rw [Nat.sub_sub]
      rfl
    rw [Leaves, run_start_clear job _ task text tasks hscan,
      List.getElem?_append_right (by rw [List.length_map]; omega), List.length_map, hindex]
    exact leaves_holding paced hscanned hraised hresolve hready

/-- **Calling off.** The worker of a search gets to its end, and if the signal is raised
from outside at the `k`-th look, the sink holds what was found by then. -/
theorem Worker.leaves_ready (paced : 1 ≤ job.settings.taskBatchSize) (tasks : List Task)
    (h : job.Tallied limit done p) (hraised : p.signal.raisedAt = some k) :
    (ready tasks).Leaves job limit p
      (job.foundByOr (done ++ tasks) (job.looksFrom done tasks)[k - 1 - p.signal.looks]?) := by
  -- the induction is on the logs ahead; the index counts the looks that are left
  induction tasks generalizing done p with
  | nil =>
    refine ⟨p, run_ready_nil job _ p, ?_⟩
    rw [Job.foundByOr, Job.looksFrom, List.getElem?_nil, Option.elim_none, List.append_nil,
      h.answers.records]
  | cons task tasks ih =>
    have hsplit : done ++ task :: tasks = (done ++ [task]) ++ tasks := by simp
    have hclear (n : Nat) : p.signal.ClearFor n ↔ p.signal.looks + n < k :=
      Signal.clearFor_iff h.isUp hraised
    by_cases hfront : p.signal.ClearFor 1
    case neg =>
      -- the look in front of the log finds the signal up
      have hindex : k - 1 - p.signal.looks = 0 := by
        rw [hclear] at hfront
        omega
      have hhead : (job.looksFrom done (task :: tasks))[0]? = some ⟨done, none⟩ := by
        rw [Job.looksFrom, List.getElem?_cons_zero]
      rw [Leaves, run_ready_up job _ task tasks hfront, hindex, hhead]
      exact ⟨p.look.2, rfl, h.records_eq_foundBy⟩
    have hk := (hclear 1).mp hfront
    have hindex : k - 1 - p.signal.looks = (k - 1 - (p.signal.looks + 1)) + 1 := by omega
    cases hresolve : task.resolve job.environment.hasZstd with
    | error e =>
      rw [Leaves, run_ready_error job _ hfront hresolve, Job.looksFrom_error hresolve, hindex,
        List.getElem?_cons_succ, hsplit]
      exact ih ((h.wait 1).fail hresolve) hraised
    | ok text =>
      rw [Leaves, run_ready_ok job _ hfront hresolve, Job.looksFrom_ok hresolve, hindex,
        List.getElem?_cons_succ, hsplit]
      exact leaves_start paced (h.wait 1) hraised hk hresolve fun _ hq hqraised => ih hq hqraised

end Cut

/-! ## What a cancelled search leaves -/

section Cancelled

variable (job : Job) (limit : Int) (tasks : List Task) (k : Nat)
variable (alone : workerCount job.environment job.settings tasks.length = 1)
variable (paced : 1 ≤ job.settings.taskBatchSize)

include alone paced

/-- A search that is called off at its `k`-th look leaves what was found there. -/
theorem run_cut_records :
    (run job (Results.sink limit) { raisedAt := some k } {} tasks).sink.records.toList
      = (job.foundByOr tasks (job.looks tasks)[k - 1]?).take limit.toNat := by
  have hstart : job.Tallied limit [] { signal := { raisedAt := some k }, sink := {} } :=
    job.tallied_start limit rfl
  obtain ⟨q, hq, hrecords⟩ := Worker.leaves_ready paced tasks hstart rfl
  rw [run_eq_ending job _ tasks alone hq]
  exact hrecords

/-- A search that is not called off leaves what is found in the end. -/
theorem run_whole_records :
    (run job (Results.sink limit) {} {} tasks).sink.records.toList
      = (tasks.flatMap job.keptOf).take limit.toNat := by
  obtain ⟨q, hq, hanswers⟩ := job.run_eq_ending_of_alone limit tasks alone paced
  rw [hq]
  exact hanswers.records

end Cancelled

/-- What has been found at any place of a search is a prefix of what is found in the end. -/
theorem Job.foundByOr_isPrefix (job : Job) (tasks : List Task) (n : Nat) :
    job.foundByOr tasks (job.looks tasks)[n]? <+: tasks.flatMap job.keptOf := by
  cases hlook : (job.looks tasks)[n]? with
  | none => exact List.prefix_refl _
  | some look =>
    have hmem : look ∈ job.looksFrom [] tasks := List.mem_of_getElem? hlook
    exact foundBy_isPrefix hmem

/-- What a log hands over are records of its full parse. -/
theorem Job.mem_recordsOf_of_mem_keptOf {job : Job} {task : Task} {record : Record}
    (h : record ∈ job.keptOf task) :
    ∃ text, task.resolve job.environment.hasZstd = .ok text ∧ record ∈ job.recordsOf task text := by
  have hmatch := (job.keptOf_isPrefix task).subset h
  cases hresolve : task.resolve job.environment.hasZstd with
  | error e =>
    rw [matchesOf_of_error hresolve] at hmatch
    cases hmatch
  | ok text =>
    rw [matchesOf_of_resolve hresolve, matchesIn] at hmatch
    exact ⟨text, rfl, (List.mem_filter.mp hmatch).1⟩

/-- **A search that is called off.** Let the signal of a search by one worker be raised from
outside at its `k`-th look. Then the search leaves what was found at that look, and this
is a prefix of what the same search finds when it is not called off. Every record is one
of the full parse of its log. If the look is at a checkpoint within a log, this is the
next log behind those that were handed over whole, none behind it contributes anything,
and of its own records those count that feeding the lines in front of the checkpoint has
completed. The checkpoint is the first one behind the call: the signal was found clear at
all earlier ones. -/
theorem run_cancelled (job : Job) (limit : Int) (tasks : List Task) (k : Nat)
    (alone : workerCount job.environment job.settings tasks.length = 1)
    (paced : 1 ≤ job.settings.taskBatchSize) :
    let cut := (run job (Results.sink limit) { raisedAt := some k } {} tasks).sink.records.toList
    let whole := (run job (Results.sink limit) {} {} tasks).sink.records.toList
    cut <+: whole
      ∧ (∀ record ∈ cut, ∃ task ∈ tasks, ∃ text,
        task.resolve job.environment.hasZstd = .ok text ∧ record ∈ job.recordsOf task text)
      ∧ cut = (job.foundByOr tasks (job.looks tasks)[k - 1]?).take limit.toNat
      ∧ ∀ behind task text fed,
        (job.looks tasks)[k - 1]? = some ⟨behind, some (task, text, fed)⟩ →
          (∃ rest, tasks = behind ++ task :: rest)
          ∧ task.resolve job.environment.hasZstd = .ok text
          ∧ cut = (behind.flatMap job.keptOf ++ job.foundAfter task text fed).take limit.toNat
          ∧ (∀ line ∈ (Text.numberedLines text).take fed, line.1 < fed + 1)
          ∧ (fed + 1) % job.interval = 0
          ∧ ∀ m, 0 < m → m ≤ fed → m % job.interval = 0 →
            ⟨behind, some (task, text, m - 1)⟩ ∈ (job.looks tasks).take (k - 1) := by
  intro cut whole
  have hcut : cut = (job.foundByOr tasks (job.looks tasks)[k - 1]?).take limit.toNat :=
    run_cut_records job limit tasks k alone paced
  have hwhole : whole = (tasks.flatMap job.keptOf).take limit.toNat :=
    run_whole_records job limit tasks alone paced
  have hfound := job.foundByOr_isPrefix tasks (k - 1)
  refine ⟨?_, ?_, hcut, ?_⟩
  · rw [hcut, hwhole, List.prefix_take_iff]
    exact ⟨(List.take_prefix _ _).trans hfound, List.length_take_le _ _⟩
  · intro record hrecord
    rw [hcut] at hrecord
    have hkept := hfound.subset (List.mem_of_mem_take hrecord)
    obtain ⟨task, htask, hmem⟩ := List.mem_flatMap.mp hkept
    exact ⟨task, htask, Job.mem_recordsOf_of_mem_keptOf hmem⟩
  · intro behind task text fed hlook
    -- where the look is says which logs are behind it
    have hmem : ⟨behind, some (task, text, fed)⟩ ∈ job.looksFrom [] tasks :=
      List.mem_of_getElem? hlook
    obtain ⟨more, rest, hdone, hsplit, hscanned⟩ := Job.of_mem_looksFrom hmem
    obtain ⟨hhead, hresolve, hfed⟩ := hscanned task text fed rfl
    obtain ⟨rest', rfl⟩ := List.head?_eq_some_iff.mp hhead
    obtain rfl : behind = more := hdone
    have hat : job.LooksAfter task text fed := (Job.mem_checkpoints.mp hfed).2
    refine ⟨⟨rest', hsplit⟩, hresolve, ?_, ?_, hat.1, ?_⟩
    · rw [hcut, hlook]
      rfl
    · -- lines are numbered from one, so the first `fed` have the numbers up to `fed`
      intro line hline
      obtain ⟨i, hi, rfl⟩ := List.mem_take_iff_getElem.mp hline
      rw [Text.numberedLines_getElem_fst]
      omega
    · intro m hpos hle hmod
      have hearlier := Job.mem_checkpoints_of_le hfed hpos hle hmod
      exact Job.consecutive_looksFrom (k - 1) behind task text fed hlook (m - 1) hearlier (by omega)

/-- A search that is called off at its second look, which is within its first log. -/
theorem run_cancelled_soloTasks :
    workerCount soloJob.environment soloJob.settings soloTasks.length = 1
      ∧ 1 ≤ soloJob.settings.taskBatchSize
      ∧ (run soloJob (Results.sink 2) { raisedAt := some 2 } {} soloTasks).sink.records.toList
        <+: (run soloJob (Results.sink 2) {} {} soloTasks).sink.records.toList :=
  ⟨by decide, by decide, (run_cancelled soloJob 2 soloTasks 2 (by decide) (by decide)).1⟩

end LogSearch.Search
