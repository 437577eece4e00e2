/-
How evenly the logs are shared out.

A share is a run of logs that stand next to each other, and all runs are of one length, which is
that of an even split, rounded up (`shares_eq_runsOf`). Cutting a list into such runs loses nothing
(`flatten_runsOf`), and every run but the last is full (`length_of_mem_dropLast_runsOf`).

That there are never more runs than workers is not a matter of rounding twice. As many runs are
enough as have room for all logs together (`length_runsOf_le`), and the workers have this room,
since the length was rounded up (`le_workers_mul_ceil`). So the number of runs, which would be a
quotient by a quotient, is never computed.

The number of workers is at least one whatever the settings are, so every search over some logs is
shared out in this way (`exists_even_shares`).
-/
import LogSearch.Search.Run
import Mathlib.Data.Rat.Floor

set_option autoImplicit false

namespace LogSearch.Search

/-! ## Runs -/

section Runs

variable {α : Type} {size : Nat} {xs run : List α}

@[simp] theorem runsOf_nil : runsOf size ([] : List α) = [] := by
  rw [runsOf, if_pos (.inl rfl)]

theorem runsOf_of_ne_nil (hsize : 0 < size) (h : xs ≠ []) :
    runsOf size xs = xs.take size :: runsOf size (xs.drop size) := by
  have hmore : ¬ (xs.isEmpty = true ∨ size = 0) := by
    rw [List.isEmpty_iff]
    exact not_or.mpr ⟨h, hsize.ne'⟩
  rw [runsOf, if_neg hmore]

theorem runsOf_of_length_le (h : xs ≠ []) (hsize : xs.length ≤ size) :
    runsOf size xs = [xs] := by
  have hpos : 0 < xs.length := List.length_pos_iff.mpr h
  rw [runsOf_of_ne_nil (by omega) h, List.take_of_length_le hsize, List.drop_of_length_le hsize,
    runsOf_nil]

theorem flatten_runsOf (hsize : 0 < size) (xs : List α) : (runsOf size xs).flatten = xs := by
  induction xs using runsOf.induct size with
  | case1 xs h =>
    rcases h with hempty | hzero
    · rw [List.isEmpty_iff.mp hempty, runsOf_nil, List.flatten_nil]
    · omega
  | case2 xs h ih => rw [runsOf, if_neg h, List.flatten_cons, ih, List.take_append_drop]

theorem ne_nil_of_mem_runsOf (h : run ∈ runsOf size xs) : run ≠ [] := by
  induction xs using runsOf.induct size with
  | case1 xs hend =>
    rw [runsOf, if_pos hend] at h
    cases h
  | case2 xs hend ih =>
    rw [runsOf, if_neg hend, List.mem_cons] at h
    rw [not_or, List.isEmpty_iff] at hend
    rcases h with rfl | h
    · intro hnil
      rcases List.take_eq_nil_iff.mp hnil with hzero | hempty
      · exact hend.2 hzero
      · exact hend.1 hempty
    · exact ih h

/-- As many runs are enough as have room for all items together. -/
theorem length_runsOf_le {count : Nat} (h : xs.length ≤ count * size) :
    (runsOf size xs).length ≤ count := by
  induction xs using runsOf.induct size generalizing count with
  | case1 xs hend =>
    rw [runsOf, if_pos hend]
    exact Nat.zero_le _
  | case2 xs hend ih =>
    rw [runsOf, if_neg hend, List.length_cons]
    rw [not_or, List.isEmpty_iff, ← List.length_eq_zero_iff] at hend
    cases count with
    | zero => omega
    | succ count =>
      -- the first run takes its part of the room, and the rest has that of the others
      have hrest : (xs.drop size).length ≤ count * size := by
        rw [Nat.succ_mul] at h
        rw [List.length_drop]
        omega
      exact Nat.succ_le_succ (ih hrest)

/-- All runs but the last are full. -/
theorem length_of_mem_dropLast_runsOf (h : run ∈ (runsOf size xs).dropLast) :
    run.length = size := by
  induction xs using runsOf.induct size with
  | case1 xs hend =>
    rw [runsOf, if_pos hend] at h
    cases h
  | case2 xs hend ih =>
    rw [runsOf, if_neg hend] at h
    by_cases hlast : runsOf size (xs.drop size) = []
    · rw [hlast] at h
      cases h
    · rw [List.dropLast_cons_of_ne_nil hlast, List.mem_cons] at h
      rcases h with rfl | h
      · -- another run follows, so items are left behind this one, and it has all it can take
        have hleft : xs.drop size ≠ [] := by
          intro hnil
          apply hlast
          rw [hnil, runsOf_nil]
        rw [Ne, List.drop_eq_nil_iff] at hleft
        rw [List.length_take]
        omega
      · exact ih h

end Runs

/-! ## Shares -/

section Shares

variable {α : Type} {workers : Nat} {xs : List α}

/-- A quotient that is rounded up, by rounding down below zero. -/
theorem neg_fdiv_neg_eq_ceil (items workers : Nat) :
    -(Int.fdiv (-(items : Int)) workers) = (⌈(items : ℚ) / workers⌉₊ : Int) := by
  have hnonneg : (0 : ℚ) ≤ (items : ℚ) / workers := by positivity
  rw [Int.natCast_ceil_eq_ceil hnonneg, Int.fdiv_eq_ediv_of_nonneg _ (Int.natCast_nonneg _),
    ← Rat.ceil_intCast_div_natCast, Int.cast_natCast]

theorem ceil_pos_of_ne_nil (manned : 0 < workers) (h : xs ≠ []) :
    0 < ⌈(xs.length : ℚ) / workers⌉₊ := by
  have hitems : 0 < xs.length := List.length_pos_iff.mpr h
  rw [Nat.ceil_pos]
  positivity

/-- The workers together have room for all items. -/
theorem le_workers_mul_ceil (manned : 0 < workers) (items : Nat) :
    items ≤ workers * ⌈(items : ℚ) / workers⌉₊ := by
  have hceil : (items : ℚ) / workers ≤ ⌈(items : ℚ) / workers⌉₊ := Nat.le_ceil _
  rw [div_le_iff₀ (by positivity)] at hceil
  rw [Nat.mul_comm]
  exact_mod_cast hceil

/-- Items are shared out in runs, whose length is that of an even split, rounded up. -/
theorem shares_eq_runsOf (manned : 0 < workers) (h : xs ≠ []) :
    shares workers xs = .ok (runsOf ⌈(xs.length : ℚ) / workers⌉₊ xs) := by
  have hempty : ¬ xs.isEmpty = true := by rwa [List.isEmpty_iff]
  have hsize := ceil_pos_of_ne_nil manned h
  simp only [shares, neg_fdiv_neg_eq_ceil]
  rw [if_neg hempty, if_neg (by omega), if_neg (by omega), Int.toNat_natCast]

/-- However many workers there are, their shares make up all the logs. -/
theorem exists_shares (manned : 0 < workers) (xs : List α) :
    ∃ shs, shares workers xs = .ok shs ∧ shs.flatten = xs := by
  by_cases h : xs = []
  · subst h
    exact ⟨[], rfl, rfl⟩
  · exact ⟨_, shares_eq_runsOf manned h, flatten_runsOf (ceil_pos_of_ne_nil manned h) xs⟩

/-- No worker is left with an empty share. -/
theorem ne_nil_of_mem_shares {workers : Int} {share : List α} {shs : List (List α)}
    (hshares : shares workers xs = .ok shs) (h : share ∈ shs) : share ≠ [] := by
  unfold shares at hshares
  split at hshares
  · cases hshares
    cases h
  split at hshares
  · cases hshares
  dsimp only at hshares
  split at hshares
  · cases hshares
  cases hshares
  exact ne_nil_of_mem_runsOf h

/-- A single worker gets all the logs. -/
theorem shares_one (h : xs ≠ []) : shares ((1 : Nat) : Int) xs = .ok [xs] := by
  have hsize : ⌈(xs.length : ℚ) / (1 : Nat)⌉₊ = xs.length := by
    rw [Nat.cast_one, div_one, Nat.ceil_natCast]
  rw [shares_eq_runsOf Nat.one_pos h, hsize, runsOf_of_length_le h (Nat.le_refl _)]

end Shares

/-! ## The shares of a search -/

theorem workerCount_pos (environment : Environment) (settings : Settings.Engine) (tasks : Nat) :
    0 < workerCount environment settings tasks :=
  Nat.le_max_left 1 _

section Search

variable {σ : Type} (job : Job) (sink : Sink σ) (signal : Signal) (start : σ)

@[simp] theorem run_nil : run job sink signal start [] = ⟨.ok { total := 0 }, start⟩ := by
  rw [run, if_pos List.isEmpty_nil]

/-- A search over some logs has a worker for each share of them. -/
theorem run_of_shares {tasks : List Task} {shs : List (List Task)} (h : tasks ≠ [])
    (hshares : shares (workerCount job.environment job.settings tasks.length) tasks = .ok shs) :
    run job sink signal start tasks
      = (let ended := (Run.ofShares shs signal start).finish job sink
        ⟨ended.report tasks.length (workerCount job.environment job.settings tasks.length),
          ended.progress.sink⟩) := by
  rw [run, if_neg (by rwa [List.isEmpty_iff])]
  dsimp only
  rw [hshares]

/-- **How a search shares out its logs.** However many processors there are, known or unknown, and
however many workers the settings allow, a search over some logs gives each of its workers a share
of them. Together the shares are the logs in their order, none of them is empty, and there are no
more than the search has workers. All but the last are of one length, the number of logs divided
by that of the workers, rounded up. -/
theorem exists_even_shares {tasks : List Task} (h : tasks ≠ []) :
    let workers := workerCount job.environment job.settings tasks.length
    ∃ shs, shares workers tasks = .ok shs
      ∧ run job sink signal start tasks
        = (let ended := (Run.ofShares shs signal start).finish job sink
          ⟨ended.report tasks.length workers, ended.progress.sink⟩)
      ∧ shs.flatten = tasks
      ∧ (∀ share ∈ shs, share ≠ [])
      ∧ shs.length ≤ workers
      ∧ ∀ share ∈ shs.dropLast, share.length = ⌈(tasks.length : ℚ) / workers⌉₊ := by
  intro workers
  have manned : 0 < workers := workerCount_pos _ _ _
  have hshares := shares_eq_runsOf manned h
  refine ⟨_, hshares, run_of_shares job sink signal start h hshares, ?_, ?_, ?_, ?_⟩
  · exact flatten_runsOf (ceil_pos_of_ne_nil manned h) tasks
  · intro share hshare
    exact ne_nil_of_mem_runsOf hshare
  · exact length_runsOf_le (le_workers_mul_ceil manned _)
  · intro share hshare
    exact length_of_mem_dropLast_runsOf hshare

end Search

/-- A search for "up" by at most three workers, on an unknown number of processors. -/
def threeWorkerJob : Job where
  criteria := { expression := .keyword "up" }
  settings := { maxWorkers := 3 }
  environment := { currentYear := 2031, processors := none }

/-- The parts of a log that was rotated. -/
def rotatedParts : List Task :=
  ["0", "1", "2", "3", "4", "5", "6", "7", "8", "9"].map fun part => .text ("app.log." ++ part) ""

/-- Ten logs for three workers: the first two get four logs each, which leaves two for the last. -/
theorem exists_even_shares_rotatedParts :
    rotatedParts ≠ []
      ∧ ∃ shs, shares ((3 : Nat) : Int) rotatedParts = .ok shs
        ∧ shs.flatten = rotatedParts ∧ (∀ share ∈ shs, share ≠ []) ∧ shs.length ≤ 3
        ∧ ∀ share ∈ shs.dropLast, share.length = 4 := by
  have hceil : ⌈((10 : Nat) : ℚ) / (3 : Nat)⌉₊ = 4 := by
    rw [Nat.ceil_eq_iff (by decide)]
    norm_num
  obtain ⟨shs, hshares, -, hflatten, hwhole, hcount, hsize⟩ :=
    exists_even_shares threeWorkerJob (Results.sink 20000) {} {} (by decide : rotatedParts ≠ [])
  exact ⟨by decide, shs, hshares, hflatten, hwhole, hcount, fun share h => (hsize share h).trans hceil⟩

end LogSearch.Search
