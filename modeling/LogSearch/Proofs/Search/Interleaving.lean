/-
What holds of a search in whatever order its workers make their steps.

The workers meet at the sink, and there one step is one haul, so the history of a
search is the list of its hand-overs: which log, by its position among all logs, and
what the sink added of its haul (`Run.handOvers`). The invariant `Sound` relates this
list to the state. Its first part, `Ledger`, is about what the workers share: the sink
holds what the hand-overs added, each time first matches of the log, and records count
as left out exactly if some log gave less than it holds. Its second part is about the
workers: what lies ahead of one has not been handed over, so no log is handed over
twice, and as long as the sink is not full nothing is passed over but logs without a
match.

A haul may come late, when the sink is full and the signal is up. It may then be what a
stopped scan has found, so it says nothing about what its log holds. This does no harm:
when the sink is full, records were left out already.

The main statement is `run_interleaved`. Since letting one worker after the other go to
its end is one of the orders, it holds of the program, too.
-/
import LogSearch.Proofs.Search.Alone
import LogSearch.Proofs.Search.Schedule

set_option autoImplicit false

namespace LogSearch.Search

/-- That a log was handed over. -/
structure HandOver where
  /-- The position of the log among all logs. -/
  position : Nat
  /-- The records that the sink added. -/
  added : List Record

namespace Run

/-- What the step of a worker hands over, if it does. -/
def handOver? (limit : Int) (shs : List (List Task)) (run : Run Results) (i : Nat) :
    Option HandOver :=
  match run.workers[i]? with
  | some (.holding source haul tasks) =>
    some {
      position := shareEnd shs i - 1 - tasks.length
      added := (run.progress.handOver (Results.sink limit) source haul).sink.records.toList.drop
        run.progress.sink.records.size }
  | _ => none

/-- What is handed over in the course of a schedule. -/
def handOvers (job : Job) (limit : Int) (shs : List (List Task)) :
    Run Results → List Nat → List HandOver
  | _, [] => []
  | run, i :: order =>
    (run.handOver? limit shs i).toList
      ++ handOvers job limit shs (run.stepAt job (Results.sink limit) i) order

/-- Whether a log lies ahead of some worker. -/
def IsAhead (shs : List (List Task)) (ws : List Worker) (position : Nat) : Prop :=
  ∃ (i : Nat) (w : Worker), ws[i]? = some w ∧ shareEnd shs i ≤ position + w.ahead
    ∧ position < shareEnd shs i

end Run

/-- The records looked for in the log at some position. -/
def Job.matchesAt (job : Job) (tasks : List Task) (position : Nat) : List Record :=
  tasks[position]?.elim [] job.matchesOf

/-! ## What the workers share -/

/-- How the history of a search and what its workers share belong together. -/
structure Ledger (job : Job) (limit : Int) (tasks : List Task) (log : List HandOver)
    (p : Progress Results) : Prop where
  raisedAt : p.signal.raisedAt = none
  isUp : p.signal.isUp = p.isFull
  room : p.sink.records.size ≤ limit.toNat
  records : p.sink.records.toList = log.flatMap (·.added)
  added : ∀ h ∈ log, h.position < tasks.length
    ∧ h.added <+: job.matchesAt tasks h.position
  isCapped : p.sink.isCapped = true ↔ ∃ h ∈ log, h.added ≠ job.matchesAt tasks h.position
  full : p.isFull = true → p.sink.isCapped = true ∧ p.sink.records.size = limit.toNat

section Ledger

variable {job : Job} {limit : Int} {tasks : List Task} {log : List HandOver}
variable {p q : Progress Results}

theorem Ledger.quiet (h : Ledger job limit tasks log p) (hq : p.Quiet q) :
    Ledger job limit tasks log q where
  raisedAt := hq.raisedAt
  isUp := by rw [hq.isUp, hq.isFull, h.isUp]
  room := by rw [hq.sink]; exact h.room
  records := by rw [hq.sink]; exact h.records
  added := h.added
  isCapped := by rw [hq.sink]; exact h.isCapped
  full := by rw [hq.sink, hq.isFull]; exact h.full

/-- What a hand-over adds: the haul, as far as there is room. -/
theorem Progress.handOver_added (source : String) (haul : Haul)
    (room : p.sink.records.size ≤ limit.toNat) :
    (p.handOver (Results.sink limit) source haul).sink.records.toList.drop p.sink.records.size
      = haul.records.toList.take (limit.toNat - p.sink.records.size) := by
  have hlen : p.sink.records.toList.length = p.sink.records.size := Array.length_toList
  rw [handOver_records limit source haul p room, List.drop_take, ← hlen, List.drop_left]

theorem Progress.handOver_records_eq (source : String) (haul : Haul)
    (room : p.sink.records.size ≤ limit.toNat) :
    (p.handOver (Results.sink limit) source haul).sink.records.toList
      = p.sink.records.toList
        ++ haul.records.toList.take (limit.toNat - p.sink.records.size) := by
  have hlen : p.sink.records.toList.length = p.sink.records.size := Array.length_toList
  rw [handOver_records limit source haul p room, List.take_append, hlen,
    List.take_of_length_le (by omega)]

/-- Whether the sink adds less than the log holds, if the haul is the whole one: this is so if
it does not fit, or if it was cut short at the cap of the log. -/
theorem Progress.added_ne_iff {task : Task} {text : String}
    (room : p.sink.records.size ≤ limit.toNat)
    (hresolve : task.resolve job.environment.hasZstd = .ok text) :
    (job.haulOf task text).records.toList.take (limit.toNat - p.sink.records.size)
        ≠ job.matchesOf task
      ↔ p.Overflows limit (job.haulOf task text) ∨ (job.haulOf task text).isCapped = true := by
  have hfirst : (job.keptOf task).take (limit.toNat - p.sink.records.size)
      <+: job.matchesOf task := (List.take_prefix _ _).trans (job.keptOf_isPrefix task)
  have hle := (job.keptOf_isPrefix task).length_le
  have heq : (job.keptOf task).take (limit.toNat - p.sink.records.size) = job.matchesOf task
      ↔ min (limit.toNat - p.sink.records.size) (job.keptOf task).length
        = (job.matchesOf task).length := by
    rw [← List.length_take]
    exact ⟨fun h => congrArg List.length h, hfirst.eq_of_length⟩
  rw [Job.haulOf_records hresolve, Ne, heq, Overflows, Job.haulOf_size hresolve,
    Job.haulOf_isCapped hresolve, decide_eq_true_eq]
  omega

/-- Behind a hand-over, records count as left out if they did before, or if the sink added less
than the log holds. -/
theorem Ledger.isCapped_handOver {task : Task} {text : String} {haul : Haul}
    (h : Ledger job limit tasks log p)
    (hresolve : task.resolve job.environment.hasZstd = .ok text)
    (hwhole : p.signal.isUp = false → haul = job.haulOf task text) (source : String) :
    (p.handOver (Results.sink limit) source haul).sink.isCapped = true
      ↔ p.sink.isCapped = true
        ∨ haul.records.toList.take (limit.toNat - p.sink.records.size) ≠ job.matchesOf task := by
  rw [Progress.handOver_isCapped limit source haul p h.room]
  by_cases hfull : p.isFull = true
  · -- the haul may be that of a stopped scan, but records were left out already
    simp only [(h.full hfull).1, Bool.true_or, true_or]
  · rw [Bool.not_eq_true] at hfull
    obtain rfl := hwhole (h.isUp.trans hfull)
    rw [Progress.added_ne_iff h.room hresolve]
    simp only [Bool.or_eq_true, decide_eq_true_eq, or_assoc]

/-- Once a haul did not fit, records count as left out, and the sink is at its limit. -/
theorem Ledger.full_handOver (h : Ledger job limit tasks log p) (source : String) (haul : Haul)
    (hfull : (p.handOver (Results.sink limit) source haul).isFull = true) :
    (p.handOver (Results.sink limit) source haul).sink.isCapped = true
      ∧ (p.handOver (Results.sink limit) source haul).sink.records.size = limit.toNat := by
  have hsize : (p.handOver (Results.sink limit) source haul).sink.records.size
      = min limit.toNat (p.sink.records.size + haul.records.size) := by
    rw [← Array.length_toList, Progress.handOver_records limit source haul p h.room,
      List.length_take, List.length_append, Array.length_toList, Array.length_toList]
  rw [Progress.handOver_isCapped limit source haul p h.room, hsize]
  rw [Progress.handOver_isFull limit source haul p h.room, Bool.or_eq_true,
    decide_eq_true_eq] at hfull
  rcases hfull with hbefore | hover
  · obtain ⟨hcapped, hlimit⟩ := h.full hbefore
    refine ⟨?_, by omega⟩
    rw [hcapped, Bool.true_or, Bool.true_or]
  · refine ⟨?_, ?_⟩
    · rw [decide_eq_true hover, Bool.or_true, Bool.true_or]
    · rw [Progress.Overflows] at hover
      omega

/-- **A hand-over in the ledger.** The haul holds first matches of a log, all that the log may
hand over unless the signal is up. -/
theorem Ledger.handOver {position : Nat} {task : Task} {text : String} {haul : Haul}
    (h : Ledger job limit tasks log p) (hat : tasks[position]? = some task)
    (hresolve : task.resolve job.environment.hasZstd = .ok text)
    (hfirst : haul.records.toList <+: job.matchesOf task)
    (hwhole : p.signal.isUp = false → haul = job.haulOf task text) (source : String) :
    Ledger job limit tasks
      (log ++ [⟨position, (p.handOver (Results.sink limit) source haul).sink.records.toList.drop
        p.sink.records.size⟩])
      (p.handOver (Results.sink limit) source haul) := by
  have hmatches : job.matchesAt tasks position = job.matchesOf task := by
    rw [Job.matchesAt, hat, Option.elim_some]
  have hposition : position < tasks.length := (List.getElem?_eq_some_iff.mp hat).1
  have hsignal := Progress.handOver_signal limit source haul p h.room
  -- the new entry holds as much of the haul as there was room for
  rw [Progress.handOver_added source haul h.room]
  refine ⟨?_, ?_, Progress.handOver_room limit source haul p h.room, ?_, ?_, ?_,
    h.full_handOver source haul⟩
  · rw [hsignal]
    split
    · exact h.raisedAt
    · exact h.raisedAt
  · rw [hsignal, Progress.handOver_isFull limit source haul p h.room]
    by_cases hover : p.Overflows limit haul
    · rw [if_pos hover, decide_eq_true hover, Bool.or_true]
      rfl
    · rw [if_neg hover, decide_eq_false hover, Bool.or_false, h.isUp]
  · rw [Progress.handOver_records_eq source haul h.room, h.records, List.flatMap_append,
      List.flatMap_singleton]
  · intro e he
    rcases List.mem_append.mp he with he | he
    · exact h.added e he
    · rw [List.mem_singleton] at he
      rw [he]
      refine ⟨hposition, ?_⟩
      rw [hmatches]
      exact (List.take_prefix _ _).trans hfirst
  · rw [h.isCapped_handOver hresolve hwhole source, h.isCapped, ← hmatches]
    simp only [List.mem_append, List.mem_singleton, or_and_right, exists_or, exists_eq_left]

/-- A full sink takes nothing more. -/
theorem Ledger.handOver_records_of_isFull (h : Ledger job limit tasks log p)
    (hfull : p.isFull = true) (source : String) (haul : Haul) :
    (p.handOver (Results.sink limit) source haul).sink.records = p.sink.records := by
  obtain ⟨-, hsize⟩ := h.full hfull
  apply Array.toList_inj.mp
  rw [Progress.handOver_records_eq source haul h.room, hsize, Nat.sub_self, List.take_zero,
    List.append_nil]

/-! ## What is missing -/

theorem Job.flatMap_range_matchesAt (job : Job) (tasks : List Task) :
    (List.range tasks.length).flatMap (job.matchesAt tasks) = tasks.flatMap job.matchesOf := by
  rw [List.flatMap_def, List.flatMap_def]
  congr 1
  apply List.ext_getElem
  · rw [List.length_map, List.length_map, List.length_range]
  · intro i hi hi'
    rw [List.length_map] at hi'
    rw [List.getElem_map, List.getElem_map, List.getElem_range, matchesAt,
      List.getElem?_eq_getElem hi', Option.elim_some]

/-- Two lists for each item, in the order of the items or one kind behind the other. -/
theorem flatMap_append_perm {α β : Type} (xs : List α) (f g : α → List β) :
    (xs.flatMap f ++ xs.flatMap g).Perm (xs.flatMap fun x => f x ++ g x) := by
  induction xs with
  | nil => exact List.Perm.nil
  | cons x xs ih =>
    simp only [List.flatMap_cons, List.append_assoc]
    refine List.Perm.append_left (f x) ?_
    exact (List.perm_append_comm_assoc _ _ _).trans (ih.append_left (g x))

/-- Positions in the log, and those that are not, make up all positions. -/
theorem perm_positions {positions : List Nat} {n : Nat} (hnodup : positions.Nodup)
    (hlt : ∀ k ∈ positions, k < n) :
    (positions ++ (List.range n).filter (· ∉ positions)).Perm (List.range n) := by
  have hin : positions.Perm ((List.range n).filter (· ∈ positions)) := by
    refine (List.perm_ext_iff_of_nodup hnodup (List.nodup_range.filter _)).mpr ?_
    intro k
    rw [List.mem_filter, List.mem_range, decide_eq_true_eq]
    exact ⟨fun hk => ⟨hlt k hk, hk⟩, fun hk => hk.2⟩
  have hsplit := List.filter_append_perm (fun k => decide (k ∈ positions)) (List.range n)
  simp only [← decide_not] at hsplit
  exact (hin.append_right _).trans hsplit

/-- The records in the sink are some of those looked for. None is missing exactly if every
log that was handed over gave all it holds, and the others hold none. -/
theorem Ledger.exists_missing (h : Ledger job limit tasks log p)
    (hnodup : (log.map (·.position)).Nodup) :
    ∃ missing, (p.sink.records.toList ++ missing).Perm (tasks.flatMap job.matchesOf)
      ∧ (missing = [] ↔ (∀ e ∈ log, e.added = job.matchesAt tasks e.position)
        ∧ ∀ k, k < tasks.length → k ∉ log.map (·.position) → job.matchesAt tasks k = []) := by
  -- missing are the rests of the logs that were handed over, and all that the others hold
  let left (e : HandOver) : List Record := (job.matchesAt tasks e.position).drop e.added.length
  let others : List Nat := (List.range tasks.length).filter (· ∉ log.map (·.position))
  have hadded (e : HandOver) (he : e ∈ log) :
      e.added ++ left e = job.matchesAt tasks e.position := by
    obtain ⟨rest, hrest⟩ := (h.added e he).2
    show e.added ++ (job.matchesAt tasks e.position).drop e.added.length = _
    rw [← hrest, List.drop_left]
  have hlt : ∀ k ∈ log.map (·.position), k < tasks.length := by
    intro k hk
    obtain ⟨e, he, rfl⟩ := List.mem_map.mp hk
    exact (h.added e he).1
  refine ⟨log.flatMap left ++ others.flatMap (job.matchesAt tasks), ?_, ?_⟩
  · have hlog : (log.flatMap (·.added) ++ log.flatMap left).Perm
        ((log.map (·.position)).flatMap (job.matchesAt tasks)) := by
      rw [List.flatMap_map]
      refine (flatMap_append_perm log _ _).trans (List.Perm.of_eq ?_)
      rw [List.flatMap_def, List.flatMap_def]
      exact congrArg List.flatten (List.map_congr_left hadded)
    have hall := (perm_positions hnodup hlt).flatMap_right (job.matchesAt tasks)
    rw [List.flatMap_append, job.flatMap_range_matchesAt] at hall
    rw [h.records, ← List.append_assoc]
    exact (hlog.append_right _).trans hall
  · rw [List.append_eq_nil_iff, List.flatMap_eq_nil_iff, List.flatMap_eq_nil_iff]
    refine and_congr ?_ ?_
    · refine forall_congr' fun e => forall_congr' fun he => ?_
      rw [← hadded e he, List.self_eq_append_right]
    · simp only [others, List.mem_filter, List.mem_range, decide_eq_true_eq, and_imp]

end Ledger

/-! ## What lies ahead -/

section IsAhead

variable {shs : List (List Task)} {ws : List Worker} {i k : Nat} {w : Worker}

open Run (IsAhead)

theorem Run.IsAhead.of_set {next : Worker} (h : IsAhead shs (ws.set i next) k)
    (hw : ws[i]? = some w) (hle : next.ahead ≤ w.ahead) : IsAhead shs ws k := by
  obtain ⟨j, v, hv, hlow, hhigh⟩ := h
  by_cases hij : i = j
  · subst hij
    rw [List.getElem?_set_self (List.getElem?_eq_some_iff.mp hw).1, Option.some.injEq] at hv
    subst hv
    exact ⟨i, w, hw, by omega, hhigh⟩
  · rw [List.getElem?_set_ne hij] at hv
    exact ⟨j, v, hv, hlow, hhigh⟩

/-- What was ahead still is, except for what the worker has passed. -/
theorem Run.IsAhead.set (next : Worker) (h : IsAhead shs ws k) (hw : ws[i]? = some w) :
    IsAhead shs (ws.set i next) k
      ∨ (shareEnd shs i ≤ k + w.ahead ∧ k + next.ahead < shareEnd shs i) := by
  obtain ⟨j, v, hv, hlow, hhigh⟩ := h
  by_cases hij : i = j
  · subst hij
    obtain rfl : w = v := Option.some.inj (hw.symm.trans hv)
    by_cases hpassed : k + next.ahead < shareEnd shs i
    · exact .inr ⟨hlow, hpassed⟩
    · refine .inl ⟨i, next, ?_, by omega, hhigh⟩
      exact List.getElem?_set_self (List.getElem?_eq_some_iff.mp hw).1
  · refine .inl ⟨j, v, ?_, hlow, hhigh⟩
    rw [List.getElem?_set_ne hij]
    exact hv

/-- At the start every log lies ahead of some worker. -/
theorem exists_share_of_lt (h : k < shs.flatten.length) :
    ∃ (i : Nat) (share : List Task), shs[i]? = some share
      ∧ shareEnd shs i ≤ k + share.length ∧ k < shareEnd shs i := by
  induction shs generalizing k with
  | nil => exact absurd h (Nat.not_lt_zero k)
  | cons share shs ih =>
    rw [List.flatten_cons, List.length_append] at h
    by_cases hfirst : k < share.length
    · have hend : shareEnd (share :: shs) 0 = share.length := by
        rw [shareEnd, List.take_succ_cons, List.take_zero, List.flatten_singleton]
      exact ⟨0, share, rfl, by omega, by omega⟩
    · obtain ⟨i, later, hlater, hlow, hhigh⟩ := ih (show k - share.length < _ by omega)
      have hend : shareEnd (share :: shs) (i + 1) = share.length + shareEnd shs i := by
        rw [shareEnd, List.take_succ_cons, List.flatten_cons, List.length_append, shareEnd]
      exact ⟨i + 1, later, hlater, by omega, by omega⟩

end IsAhead

/-! ## The invariant -/

/-- How the history of a search and its state belong together. -/
structure Sound (job : Job) (limit : Int) (shs : List (List Task)) (log : List HandOver)
    (run : Run Results) : Prop where
  ledger : Ledger job limit shs.flatten log run.progress
  length : run.workers.length = shs.length
  stands : ∀ (i : Nat) (share : List Task) (w : Worker), shs[i]? = some share →
    run.workers[i]? = some w → w.Stands job share run.progress.signal.isUp
  nodup : (log.map (·.position)).Nodup
  fresh : ∀ k, Run.IsAhead shs run.workers k → k ∉ log.map (·.position)
  reached : run.progress.isFull = false → ∀ k, k < shs.flatten.length →
    k ∈ log.map (·.position) ∨ job.matchesAt shs.flatten k = [] ∨ Run.IsAhead shs run.workers k

section Sound

variable {job : Job} {limit : Int} {shs : List (List Task)} {log : List HandOver}
variable {run : Run Results}

theorem sound_ofShares (job : Job) (limit : Int) (shs : List (List Task)) :
    Sound job limit shs [] (Run.ofShares shs {} {}) := by
  refine ⟨⟨rfl, rfl, Nat.zero_le _, rfl, ?_, ?_, ?_⟩, ?_, ?_, List.nodup_nil, ?_, ?_⟩
  · rintro e ⟨⟩
  · constructor
    · rintro ⟨⟩
    · rintro ⟨e, ⟨⟩, -⟩
  · rintro ⟨⟩
  · exact List.length_map _
  · intro i share w hshare hw
    rw [Run.ofShares, List.getElem?_map, hshare, Option.map_some, Option.some.injEq] at hw
    subst hw
    exact List.suffix_refl share
  · rintro k - ⟨⟩
  · intro _ k hk
    obtain ⟨i, share, hshare, hlow, hhigh⟩ := exists_share_of_lt hk
    refine .inr (.inr ⟨i, .ready share, ?_, hlow, hhigh⟩)
    rw [Run.ofShares, List.getElem?_map, hshare, Option.map_some]

theorem Sound.exists_share (h : Sound job limit shs log run) {i : Nat} {w : Worker}
    (hw : run.workers[i]? = some w) : ∃ share, shs[i]? = some share := by
  obtain ⟨hi, -⟩ := List.getElem?_eq_some_iff.mp hw
  rw [h.length] at hi
  exact ⟨shs[i], List.getElem?_eq_getElem hi⟩

/-- After a step of one worker, it stands as it should, and so do the others. -/
theorem Sound.stands_set (h : Sound job limit shs log run) {i : Nat} {w next : Worker}
    {share : List Task} {isUp : Bool} (hw : run.workers[i]? = some w)
    (hshare : shs[i]? = some share) (hnext : next.Stands job share isUp)
    (hup : isUp = run.progress.signal.isUp ∨ isUp = true) (j : Nat) (other : List Task)
    (v : Worker) (hother : shs[j]? = some other) (hv : (run.workers.set i next)[j]? = some v) :
    v.Stands job other isUp := by
  by_cases hij : i = j
  · subst hij
    rw [List.getElem?_set_self (List.getElem?_eq_some_iff.mp hw).1, Option.some.injEq] at hv
    obtain rfl : share = other := Option.some.inj (hshare.symm.trans hother)
    rwa [← hv]
  · rw [List.getElem?_set_ne hij] at hv
    have hstands := h.stands j other v hother hv
    rcases hup with rfl | rfl
    · exact hstands
    · exact hstands.of_isUp

theorem Worker.Moves.ahead_le {share : List Task} {isUp : Bool} {w next : Worker}
    (h : Moves job share isUp w next) : next.ahead ≤ w.ahead := by
  rcases h with hstays | ⟨_, _, _, hfrom, hto, _⟩ | ⟨_, hto⟩
  · exact Nat.le_of_eq hstays
  · omega
  · omega

/-- **A step without a hand-over.** -/
theorem Sound.quiet (h : Sound job limit shs log run) {i : Nat} {w next : Worker}
    {share : List Task} {q : Progress Results} (hw : run.workers[i]? = some w)
    (hshare : shs[i]? = some share) (hq : run.progress.Quiet q)
    (hnext : next.Stands job share run.progress.signal.isUp)
    (hmoves : Worker.Moves job share run.progress.signal.isUp w next) :
    Sound job limit shs log ⟨run.workers.set i next, q⟩ := by
  refine ⟨h.ledger.quiet hq, ?_, ?_, h.nodup, ?_, ?_⟩
  · rw [List.length_set, h.length]
  · rw [← hq.isUp] at hnext
    exact h.stands_set hw hshare hnext (.inl hq.isUp)
  · intro k hk
    exact h.fresh k (hk.of_set hw hmoves.ahead_le)
  · intro hdown k hk
    have hdown : run.progress.isFull = false := hq.isFull.symm.trans hdown
    rcases h.reached hdown k hk with hlog | hempty | hahead
    · exact .inl hlog
    · exact .inr (.inl hempty)
    · rcases hahead.set next hw with hahead | ⟨hlow, hhigh⟩
      · exact .inr (.inr hahead)
      · -- the worker has passed the log, so the log could not be read
        rcases hmoves with hstays | ⟨task, tasks, hsuffix, hfrom, hto, hempty⟩ | ⟨hup, -⟩
        · omega
        · have hposition : k = shareEnd shs i - 1 - tasks.length := by omega
          refine .inr (.inl ?_)
          rw [Job.matchesAt, hposition, getElem?_of_isSuffix hshare hsuffix, Option.elim_some,
            hempty]
        · rw [h.ledger.isUp, hdown] at hup
          cases hup

/-- A log that has been handed over is ahead of nobody. No other share reaches as far, and in
its own share it is behind. -/
theorem Sound.not_isAhead (h : Sound job limit shs log run) {i : Nat} {share : List Task}
    {tasks : List Task} (hshare : shs[i]? = some share) (hlt : tasks.length < share.length) :
    ¬ Run.IsAhead shs (run.workers.set i (.behind tasks))
      (shareEnd shs i - 1 - tasks.length) := by
  rintro ⟨j, v, hv, hlow, hhigh⟩
  have hend := shareEnd_eq hshare
  by_cases hij : i = j
  · subst hij
    obtain ⟨hi, hv⟩ := List.getElem?_eq_some_iff.mp hv
    rw [List.getElem_set_self] at hv
    subst hv
    have hahead : (Worker.behind tasks).ahead = tasks.length := rfl
    omega
  · rw [List.getElem?_set_ne hij] at hv
    obtain ⟨other, hother⟩ := h.exists_share hv
    have hle := (h.stands j other v hother hv).ahead_le
    rcases Nat.lt_or_gt_of_ne hij with hbefore | hbehind
    · have := shareEnd_add_length_le hbefore hother
      omega
    · have := shareEnd_add_length_le hbehind hshare
      omega

/-- **A hand-over.** -/
theorem Sound.handOver (h : Sound job limit shs log run) {i : Nat} {source : String}
    {haul : Haul} {tasks : List Task} (hw : run.workers[i]? = some (.holding source haul tasks)) :
    Sound job limit shs (log ++ (run.handOver? limit shs i).toList)
      ⟨run.workers.set i (.behind tasks),
        run.progress.handOver (Results.sink limit) source haul⟩ := by
  obtain ⟨share, hshare⟩ := h.exists_share hw
  obtain ⟨task, text, hsuffix, hresolve, hfirst, hwhole⟩ := h.stands i share _ hshare hw
  have hat := getElem?_of_isSuffix hshare hsuffix
  have hlen : tasks.length < share.length := hsuffix.length_le
  have hend := shareEnd_eq hshare
  have hpositions : (log ++ (run.handOver? limit shs i).toList).map (·.position)
      = log.map (·.position) ++ [shareEnd shs i - 1 - tasks.length] := by
    rw [Run.handOver?, hw, Option.toList_some, List.map_append, List.map_singleton]
  have hledger : Ledger job limit shs.flatten (log ++ (run.handOver? limit shs i).toList)
      (run.progress.handOver (Results.sink limit) source haul) := by
    rw [Run.handOver?, hw, Option.toList_some]
    exact h.ledger.handOver hat hresolve hfirst hwhole source
  have hbefore : Run.IsAhead shs run.workers (shareEnd shs i - 1 - tasks.length) := by
    refine ⟨i, _, hw, ?_, by omega⟩
    show shareEnd shs i ≤ _ + (tasks.length + 1)
    omega
  -- until now the log was ahead of its worker, and from now on it is in the list
  refine ⟨hledger, ?_, ?_, ?_, ?_, ?_⟩
  · rw [List.length_set, h.length]
  · have hrest : tasks <:+ share := (List.suffix_cons task tasks).trans hsuffix
    refine h.stands_set hw hshare hrest ?_
    show (run.progress.handOver (Results.sink limit) source haul).signal.isUp = _ ∨ _
    rw [Progress.handOver_signal limit source haul _ h.ledger.room]
    split
    · exact .inr rfl
    · exact .inl rfl
  · rw [hpositions]
    refine List.nodup_append.mpr ⟨h.nodup, List.pairwise_singleton _ _, ?_⟩
    rintro k hk _ hnew rfl
    rw [List.mem_singleton] at hnew
    rw [hnew] at hk
    exact h.fresh _ hbefore hk
  · intro k hk
    rw [hpositions, List.mem_append, List.mem_singleton]
    rintro (hlog | rfl)
    · refine h.fresh k (hk.of_set hw ?_) hlog
      exact Nat.le_succ _
    · exact h.not_isAhead hshare hlen hk
  · intro hdown k hk
    have hdown : run.progress.isFull = false := by
      rw [Progress.handOver_isFull limit source haul _ h.ledger.room, Bool.or_eq_false_iff] at hdown
      exact hdown.1
    rw [hpositions, List.mem_append, List.mem_singleton]
    rcases h.reached hdown k hk with hlog | hempty | hahead
    · exact .inl (.inl hlog)
    · exact .inr (.inl hempty)
    · rcases hahead.set (.behind tasks) hw with hahead | ⟨hlow, hhigh⟩
      · exact .inr (.inr hahead)
      · have hfrom : (Worker.holding source haul tasks).ahead = tasks.length + 1 := rfl
        have hto : (Worker.behind tasks).ahead = tasks.length := rfl
        exact .inl (.inr (by omega))

/-- What the step of the worker of some number can be: there is no such worker, or it hands
over nothing, or it hands over its haul. -/
theorem Sound.stepAt_cases (h : Sound job limit shs log run)
    (paced : 1 ≤ job.settings.taskBatchSize) (i : Nat) :
    (run.stepAt job (Results.sink limit) i = run ∧ run.handOver? limit shs i = none)
    ∨ (∃ share w next q, run.workers[i]? = some w ∧ shs[i]? = some share
      ∧ run.stepAt job (Results.sink limit) i = ⟨run.workers.set i next, q⟩
      ∧ run.handOver? limit shs i = none ∧ run.progress.Quiet q
      ∧ next.Stands job share run.progress.signal.isUp
      ∧ Worker.Moves job share run.progress.signal.isUp w next)
    ∨ ∃ source haul tasks, run.workers[i]? = some (.holding source haul tasks)
      ∧ run.stepAt job (Results.sink limit) i = ⟨run.workers.set i (.behind tasks),
        run.progress.handOver (Results.sink limit) source haul⟩ := by
  rcases hw : run.workers[i]? with _ | w
  · refine .inl ⟨Run.stepAt_none hw, ?_⟩
    rw [Run.handOver?, hw]
  · obtain ⟨share, hshare⟩ := h.exists_share hw
    by_cases hholding : ∃ source haul tasks, w = .holding source haul tasks
    · obtain ⟨source, haul, tasks, rfl⟩ := hholding
      exact .inr (.inr ⟨source, haul, tasks, rfl, Run.stepAt_some hw⟩)
    · -- only a worker that holds a haul can hand one over
      have hnone : run.handOver? limit shs i = none := by
        unfold Run.handOver?
        rw [hw]
        split
        · rename_i source haul tasks heq
          exact absurd ⟨source, haul, tasks, Option.some.inj heq⟩ hholding
        · rfl
      obtain ⟨hq, hnext, hmoves⟩ := Worker.step_quiet (Results.sink limit) paced
        h.ledger.raisedAt (h.stands i share w hshare hw)
        fun source haul tasks hw => hholding ⟨source, haul, tasks, hw⟩
      exact .inr (.inl ⟨share, w, _, _, rfl, hshare, Run.stepAt_some hw, hnone, hq, hnext, hmoves⟩)

/-- **One step.** Whichever worker makes it, a step keeps the invariant. -/
theorem Sound.stepAt (h : Sound job limit shs log run) (paced : 1 ≤ job.settings.taskBatchSize)
    (i : Nat) :
    Sound job limit shs (log ++ (run.handOver? limit shs i).toList)
      (run.stepAt job (Results.sink limit) i) := by
  rcases h.stepAt_cases paced i with ⟨hstep, hnone⟩
    | ⟨share, w, next, q, hw, hshare, hstep, hnone, hq, hnext, hmoves⟩
    | ⟨source, haul, tasks, hw, hstep⟩
  · rw [hstep, hnone, Option.toList_none, List.append_nil]
    exact h
  · rw [hstep, hnone, Option.toList_none, List.append_nil]
    exact h.quiet hw hshare hq hnext hmoves
  · rw [hstep]
    exact h.handOver hw

/-- A step changes nothing in a full sink, and it stays full. -/
theorem Sound.stepAt_of_isFull (h : Sound job limit shs log run)
    (paced : 1 ≤ job.settings.taskBatchSize) (hfull : run.progress.isFull = true) (i : Nat) :
    (run.stepAt job (Results.sink limit) i).progress.sink.records = run.progress.sink.records
      ∧ (run.stepAt job (Results.sink limit) i).progress.isFull = true := by
  rcases h.stepAt_cases paced i with ⟨hstep, -⟩
    | ⟨share, w, next, q, -, -, hstep, -, hq, -, -⟩ | ⟨source, haul, tasks, -, hstep⟩
  · rw [hstep]
    exact ⟨rfl, hfull⟩
  · rw [hstep]
    exact ⟨congrArg Results.records hq.sink, hq.isFull.trans hfull⟩
  · rw [hstep]
    refine ⟨h.ledger.handOver_records_of_isFull hfull source haul, ?_⟩
    show (run.progress.handOver (Results.sink limit) source haul).isFull = true
    rw [Progress.handOver_isFull limit source haul _ h.ledger.room, hfull, Bool.true_or]

/-- **Any schedule.** -/
theorem Sound.after (h : Sound job limit shs log run) (paced : 1 ≤ job.settings.taskBatchSize)
    (order : List Nat) :
    Sound job limit shs (log ++ run.handOvers job limit shs order)
      (run.after job (Results.sink limit) order) := by
  induction order generalizing log run with
  | nil =>
    rw [Run.handOvers, List.append_nil]
    exact h
  | cons i order ih =>
    rw [Run.handOvers, ← List.append_assoc]
    exact ih (h.stepAt paced i)

theorem Sound.after_of_isFull (h : Sound job limit shs log run)
    (paced : 1 ≤ job.settings.taskBatchSize) (hfull : run.progress.isFull = true)
    (order : List Nat) :
    (run.after job (Results.sink limit) order).progress.sink.records
      = run.progress.sink.records := by
  induction order generalizing log run with
  | nil => rfl
  | cons i order ih =>
    obtain ⟨hrecords, hstill⟩ := h.stepAt_of_isFull paced hfull i
    rw [← hrecords]
    exact ih (h.stepAt paced i) hstill

/-- When all workers are done, records count as left out exactly if some are missing. -/
theorem Sound.isCapped_iff (h : Sound job limit shs log run)
    (hdone : ∀ w ∈ run.workers, w.isDone = true) :
    ∃ missing, (run.progress.sink.records.toList ++ missing).Perm
        (shs.flatten.flatMap job.matchesOf)
      ∧ (run.progress.sink.isCapped = true ↔ missing ≠ []) := by
  obtain ⟨missing, hperm, hnil⟩ := h.ledger.exists_missing h.nodup
  refine ⟨missing, hperm, ?_⟩
  -- a worker that is done has nothing ahead
  have hnothing (k : Nat) : ¬ Run.IsAhead shs run.workers k := by
    rintro ⟨i, w, hw, hlow, hhigh⟩
    have hend := hdone w (List.mem_of_getElem? hw)
    have hahead : w.ahead = 0 := by
      rcases w with tasks | ⟨source, scan, tasks⟩ | ⟨source, haul, tasks⟩ | tasks | _ | a
      · cases hend
      · cases hend
      · cases hend
      · cases hend
      · rfl
      · rfl
    omega
  constructor
  · intro hcapped hmissing
    obtain ⟨e, he, hshort⟩ := h.ledger.isCapped.mp hcapped
    exact hshort ((hnil.mp hmissing).1 e he)
  · intro hmissing
    refine Classical.byContradiction fun hcapped => hmissing (hnil.mpr ⟨?_, ?_⟩)
    · intro e he
      refine Classical.byContradiction fun hshort => hcapped ?_
      exact h.ledger.isCapped.mpr ⟨e, he, hshort⟩
    · -- the sink is not full, so nothing was passed over but logs without a match
      intro k hk hnot
      have hdown : run.progress.isFull = false := by
        rw [← Bool.not_eq_true]
        exact fun hfull => hcapped (h.ledger.full hfull).1
      rcases h.reached hdown k hk with hlog | hempty | hahead
      · exact absurd hlog hnot
      · exact hempty
      · exact absurd hahead (hnothing k)

end Sound

/-! ## The search -/

/-- **A search in any order.** Let some workers share out some logs, with nothing outside that
calls the search off, and let them make their steps in any order. Then at any time the sink
is within its limit, and once it was full its records never change. No log is handed over
twice. The records are what the hand-overs added, one after the other, each time first
matches of the log that was handed over. And once all workers are done, records count as
left out exactly if the matches of the logs are not all there. -/
theorem run_interleaved (job : Job) (limit : Int) (tasks : List Task) (workers : Nat)
    (manned : 0 < workers) (paced : 1 ≤ job.settings.taskBatchSize) :
    ∃ shs, shares workers tasks = .ok shs ∧ shs.flatten = tasks ∧ ∀ order : List Nat,
      let start : Run Results := Run.ofShares shs {} {}
      let now := start.after job (Results.sink limit) order
      let log := start.handOvers job limit shs order
      let results := now.progress.sink.records
      results.size ≤ limit.toNat
      ∧ (now.progress.isFull = true → ∀ later : List Nat,
        (now.after job (Results.sink limit) later).progress.sink.records = results)
      ∧ (log.map (·.position)).Nodup
      ∧ results.toList = log.flatMap (·.added)
      ∧ (∀ e ∈ log, ∃ task, tasks[e.position]? = some task ∧ e.added <+: job.matchesOf task)
      ∧ ((∀ w ∈ now.workers, w.isDone = true) →
        ∃ missing, (results.toList ++ missing).Perm (tasks.flatMap job.matchesOf)
          ∧ (now.progress.sink.isCapped = true ↔ missing ≠ [])) := by
  obtain ⟨shs, hshares, rfl⟩ := exists_shares manned tasks
  refine ⟨shs, hshares, rfl, fun order => ?_⟩
  have h := (sound_ofShares job limit shs).after paced order
  rw [List.nil_append] at h
  refine ⟨h.ledger.room, h.after_of_isFull paced, h.nodup, h.ledger.records, ?_, h.isCapped_iff⟩
  intro e he
  obtain ⟨hlt, hfirst⟩ := h.ledger.added e he
  refine ⟨shs.flatten[e.position], List.getElem?_eq_getElem hlt, ?_⟩
  rwa [Job.matchesAt, List.getElem?_eq_getElem hlt, Option.elim_some] at hfirst

/-- Three logs, two of which are the share of the first of two workers. -/
theorem run_interleaved_two_workers :
    0 < 2 ∧ 1 ≤ soloJob.settings.taskBatchSize
      ∧ ∃ shs, shares ((2 : Nat) : Int) soloTasks = .ok shs ∧ ∀ order : List Nat,
        ((Run.ofShares shs {} {}).after soloJob (Results.sink 1) order).progress.sink.records.size
          ≤ 1 := by
  obtain ⟨shs, hshares, -, hany⟩ := run_interleaved soloJob 1 soloTasks 2 (by decide) (by decide)
  exact ⟨by decide, by decide, shs, hshares, fun order => (hany order).1⟩

/-- The program leaves records of the logs within the limit, and says whether some are
missing. -/
theorem run_sink (job : Job) (limit : Int) (tasks : List Task)
    (paced : 1 ≤ job.settings.taskBatchSize) :
    (run job (Results.sink limit) {} {} tasks).sink.records.size ≤ limit.toNat
      ∧ ∃ missing,
        ((run job (Results.sink limit) {} {} tasks).sink.records.toList ++ missing).Perm
          (tasks.flatMap job.matchesOf)
        ∧ ((run job (Results.sink limit) {} {} tasks).sink.isCapped = true ↔ missing ≠ []) := by
  by_cases hempty : tasks = []
  · subst hempty
    rw [run_nil]
    refine ⟨Nat.zero_le _, [], List.Perm.refl _, ?_⟩
    constructor
    · rintro ⟨⟩
    · intro hne
      exact absurd rfl hne
  · have manned := workerCount_pos job.environment job.settings tasks.length
    obtain ⟨shs, hshares, hflatten⟩ := exists_shares manned tasks
    rw [run_of_shares job (Results.sink limit) {} {} hempty hshares]
    obtain ⟨order, horder⟩ := (Run.ofShares shs {} {}).exists_finish_eq_after job (Results.sink limit)
    have h := (sound_ofShares job limit shs).after paced order
    rw [← horder, List.nil_append] at h
    rw [← hflatten]
    exact ⟨h.ledger.room, h.isCapped_iff fun w hw => Run.isDone_of_mem_finishEach job _ hw⟩

end LogSearch.Search
