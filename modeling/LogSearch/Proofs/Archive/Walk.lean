/-
How far the walk through an archive goes.

A walk that advances by a block at every header is through after as many headers as
the archive has blocks. Whether it advances at a header is decided by the stated
size alone: rounding up leads back, or to the same place, exactly if the size is at
most minus one block (`le_next_iff`). So the bound holds for an archive exactly if
no header on the way states such a size, which is `walk_bounded_iff`. Only a size
that is written with a minus sign can be negative (`minus_mem_of_sizeOf?`), so
sizes in base 256, blank ones and plain octal ones never lead back.

Sizes that do lead back are read all the same. Then a header may be visited several
times, as in `backwardArchive`, or for ever, as in `turningArchive`. The last section
shows that the limit on the number of steps tells these apart: a walk that exceeds
it never ends.
-/
import LogSearch.Archive.Reading

set_option autoImplicit false

namespace LogSearch.Archive

variable {archive : Bytes} {place : Int}

/-! ## One step -/

/-- The header at a place. -/
def headerAt (archive : Bytes) (place : Int) : Header :=
  Header.ofBlock (between archive place (place + blockSize))

/-- Whether there is a header at a place: two blocks are left, and the first of them is not
all zeros. -/
def HasHeader (archive : Bytes) (place : Int) : Prop :=
  2 * (blockSize : Int) ≤ archive.length - place
    ∧ (between archive place (place + blockSize)).all (· = 0) = false

/-- The places of the first `n` headers that a walk visits. -/
def headers (archive : Bytes) : Nat → Int → List Int
  | 0, _ => []
  | n + 1, place =>
    match step archive place with
    | .stop => []
    | .abort _ => [place]
    | .next next _ => place :: headers archive n next

/-- The walk stops where there is no header. -/
theorem step_eq_stop (h : ¬ HasHeader archive place) : step archive place = .stop := by
  unfold step
  by_cases hroom : archive.length - place < 2 * (blockSize : Int)
  · rw [if_pos hroom]
  · rw [if_neg hroom]
    have hzeros : (between archive place (place + blockSize)).all (· = 0) = true := by
      rw [← Bool.not_eq_false]
      intro hsome
      exact h ⟨by omega, hsome⟩
    dsimp only
    rw [if_pos hzeros]

/-- At a header without a size the walk breaks off. -/
theorem step_eq_abort (h : HasHeader archive place) (hsize : (headerAt archive place).size = none) :
    step archive place = .abort ⟨.unreadableSize, (headerAt archive place).name, place⟩ := by
  obtain ⟨hroom, hsome⟩ := h
  unfold step
  rw [if_neg (by omega)]
  dsimp only
  rw [if_neg (by rw [hsome]; exact Bool.false_ne_true)]
  rw [headerAt] at hsize ⊢
  rw [hsize]

/-- At a header with a size the walk goes on behind the content, filled up to whole blocks. -/
theorem step_eq_next {size : Int} (h : HasHeader archive place)
    (hsize : (headerAt archive place).size = some size) :
    ∃ found, step archive place = .next (place + blockSize + paddedSize size) found := by
  obtain ⟨hroom, hsome⟩ := h
  unfold step
  rw [if_neg (by omega)]
  dsimp only
  rw [if_neg (by rw [hsome]; exact Bool.false_ne_true)]
  rw [headerAt] at hsize
  rw [hsize]
  exact ⟨_, rfl⟩

/-- Everything that a step can be. -/
theorem step_cases (archive : Bytes) (place : Int) :
    (¬ HasHeader archive place ∧ step archive place = .stop)
      ∨ (HasHeader archive place ∧ (headerAt archive place).size = none
        ∧ step archive place = .abort ⟨.unreadableSize, (headerAt archive place).name, place⟩)
      ∨ ∃ size found, HasHeader archive place ∧ (headerAt archive place).size = some size
        ∧ step archive place = .next (place + blockSize + paddedSize size) found := by
  by_cases h : HasHeader archive place
  · rcases hsize : (headerAt archive place).size with _ | size
    · exact .inr (.inl ⟨h, rfl, step_eq_abort h hsize⟩)
    · obtain ⟨found, hstep⟩ := step_eq_next h hsize
      exact .inr (.inr ⟨size, found, h, rfl, hstep⟩)
  · exact .inl ⟨h, step_eq_stop h⟩

/-- Where the walk goes on there is a header, and its size says where. -/
theorem of_step_eq_next {next : Int} {found : Option Finding}
    (h : step archive place = .next next found) :
    HasHeader archive place ∧ ∃ size, (headerAt archive place).size = some size
      ∧ next = place + blockSize + paddedSize size := by
  rcases step_cases archive place with ⟨-, hstep⟩ | ⟨-, -, hstep⟩ | ⟨size, _, hat, hsize, hstep⟩
  · rw [hstep] at h
    cases h
  · rw [hstep] at h
    cases h
  · rw [hstep] at h
    cases h
    exact ⟨hat, size, hsize, rfl⟩

/-! ## Rounding -/

/-- Rounding up to whole blocks gives the least multiple that is not below the size. -/
theorem paddedSize_bounds (size : Int) :
    size ≤ paddedSize size ∧ paddedSize size < size + blockSize
      ∧ paddedSize size % blockSize = 0 := by
  have hdiv : (-size).fdiv (blockSize : Int) = -size / 512 :=
    Int.fdiv_eq_ediv_of_nonneg _ (by decide)
  rw [paddedSize, hdiv, blockSize]
  omega

/-- The walk leads on by a block or more exactly if the size is above minus one block. -/
theorem le_next_iff (place size : Int) :
    place + blockSize ≤ place + blockSize + paddedSize size ↔ -(blockSize : Int) < size := by
  obtain ⟨hlower, hupper, hmod⟩ := paddedSize_bounds size
  rw [blockSize] at *
  omega

/-! ## Signs -/

/-- An unsigned reader gives no negative number, so a minus sign stands in front of one. -/
theorem head?_of_signed?_neg {read : List Char → Option Nat} {cs : List Char} {n : Int}
    (h : Text.signed? read cs = some n) (hneg : n < 0) : cs.head? = some '-' := by
  have hnonneg (cs : List Char) : (read cs).map (fun m => (m : Int)) ≠ some n := by
    rcases read cs with _ | m
    · rintro ⟨⟩
    · rintro ⟨⟩
      exact absurd hneg (Int.not_lt.mpr (Int.natCast_nonneg m))
  unfold Text.signed? at h
  split at h
  · rfl
  · exact absurd h (hnonneg _)
  · exact absurd h (hnonneg _)

/-- A negative size is written with a minus sign: no blank, base-256 or plain octal field
states one. -/
theorem minus_mem_of_sizeOf? {field : Bytes} {size : Int} (h : sizeOf? field = some size)
    (hneg : size < 0) : 0x2D ∈ field := by
  unfold sizeOf? at h
  split at h
  case h_2 =>
    cases h
    exact absurd hneg (by decide)
  rename_i b bytes
  by_cases hbinary : 0x80 ≤ b
  · rw [if_pos hbinary] at h
    cases h
    omega
  rw [if_neg hbinary] at h
  dsimp only at h
  split at h
  · cases h
    exact absurd hneg (by decide)
  · have hhead := head?_of_signed?_neg h hneg
    rw [List.head?_map, Option.map_eq_some_iff] at hhead
    obtain ⟨c, hc, hminus⟩ := hhead
    -- the first character is a byte of the field, since blanks are only cut off at its ends
    have hmem : c ∈ b :: bytes := by
      have hstripped := List.mem_of_mem_head? hc
      rw [List.mem_reverse] at hstripped
      have hfront := (List.dropWhile_sublist _).subset hstripped
      rw [List.mem_reverse] at hfront
      exact (List.dropWhile_sublist _).subset hfront
    have hbyte : c = 0x2D := by
      have hlt : c.toNat < 256 := c.toNat_lt
      have hvalid : c.toNat.isValidChar := Or.inl (by omega)
      have hnat : (Char.ofNat c.toNat).toNat = c.toNat := by
        rw [Char.ofNat, dif_pos hvalid]
        rfl
      rw [hminus] at hnat
      exact UInt8.toNat_inj.mp hnat.symm
    rwa [← hbyte]

/-! ## Walks that advance -/

/-- The headers of a walk, one at a time. -/
theorem headers_succ (archive : Bytes) (n : Nat) (place : Int) :
    (¬ HasHeader archive place ∧ headers archive (n + 1) place = [])
      ∨ (HasHeader archive place ∧ (headerAt archive place).size = none
        ∧ headers archive (n + 1) place = [place])
      ∨ ∃ next found, step archive place = .next next found ∧ HasHeader archive place
        ∧ headers archive (n + 1) place = place :: headers archive n next := by
  rcases step_cases archive place with ⟨h, hstep⟩ | ⟨h, hsize, hstep⟩ | ⟨size, found, h, -, hstep⟩
  · refine .inl ⟨h, ?_⟩
    rw [headers, hstep]
  · refine .inr (.inl ⟨h, hsize, ?_⟩)
    rw [headers, hstep]
  · refine .inr (.inr ⟨_, found, hstep, h, ?_⟩)
    rw [headers, hstep]

/-- Where the walk has visited a header there is one. -/
theorem hasHeader_of_mem {n : Nat} {visited : Int} (h : visited ∈ headers archive n place) :
    HasHeader archive visited := by
  induction n generalizing place with
  | zero => cases h
  | succ n ih =>
    rcases headers_succ archive n place with ⟨-, heq⟩ | ⟨hat, -, heq⟩ | ⟨next, found, -, hat, heq⟩
    · rw [heq] at h
      cases h
    · rw [heq, List.mem_singleton] at h
      rwa [h]
    · rw [heq] at h
      rcases List.mem_cons.mp h with rfl | h
      · exact hat
      · exact ih h

/-- A walk of `n` steps has not ended only if it has visited `n` headers. -/
theorem length_headers_of_walk {n : Nat} (h : walk archive n place = none) :
    (headers archive n place).length = n := by
  induction n generalizing place with
  | zero => rfl
  | succ n ih =>
    unfold walk at h
    rcases step_cases archive place with ⟨-, hstep⟩ | ⟨-, -, hstep⟩ | ⟨size, found, -, -, hstep⟩
    · rw [hstep] at h
      cases h
    · rw [hstep] at h
      cases h
    · -- only this case leaves the question open, and with one step less
      rw [hstep] at h
      rw [headers, hstep]
      dsimp only at h ⊢
      rw [List.length_cons, ih (Option.map_eq_none_iff.mp h)]

/-- A walk comes across at most one thing for each header that it visits. -/
theorem length_findings_le {n : Nat} {findings : List Finding}
    (h : walk archive n place = some findings) :
    findings.length ≤ (headers archive n place).length := by
  induction n generalizing place findings with
  | zero => cases h
  | succ n ih =>
    unfold walk at h
    rw [headers]
    rcases step_cases archive place with ⟨-, hstep⟩ | ⟨-, -, hstep⟩ | ⟨size, found, -, -, hstep⟩
    · rw [hstep] at h ⊢
      cases h
      exact Nat.le_refl _
    · rw [hstep] at h ⊢
      cases h
      exact Nat.le_refl _
    · rw [hstep] at h ⊢
      dsimp only at h ⊢
      obtain ⟨later, hlater, rfl⟩ := Option.map_eq_some_iff.mp h
      have hone : found.toList.length ≤ 1 := by
        rcases found with _ | f
        · exact Nat.zero_le _
        · exact Nat.le_refl _
      have hrest := ih hlater
      rw [List.length_append, List.length_cons]
      omega

/-- Entries and warnings make up all that the walk comes across. -/
theorem length_ofFindings (findings : List Finding) :
    (Reading.ofFindings findings).entries.length + (Reading.ofFindings findings).warnings.length
      = findings.length := by
  induction findings with
  | nil => rfl
  | cons finding findings ih =>
    unfold Reading.ofFindings at ih ⊢
    rcases finding with e | w
    · simp only [List.filterMap_cons, List.length_cons] at ih ⊢
      omega
    · simp only [List.filterMap_cons, List.length_cons] at ih ⊢
      omega

/-- Whether every header that a walk visits leads on by a block or more. -/
def Advances (archive : Bytes) (place : Int) : Prop :=
  ∀ n, ∀ visited ∈ headers archive n place, ∀ next found,
    step archive visited = .next next found → visited + blockSize ≤ next

theorem Advances.of_step {next : Int} {found : Option Finding} (h : Advances archive place)
    (hstep : step archive place = .next next found) : Advances archive next := by
  intro n visited hvisited
  refine h (n + 1) visited ?_
  rw [headers, hstep]
  exact List.mem_cons_of_mem _ hvisited

/-- A walk that advances visits no more headers than there are blocks ahead, less the block
that has to be left behind the last header. -/
theorem length_headers_le {n : Nat} (h : Advances archive place)
    (hsome : headers archive n place ≠ []) :
    blockSize * (headers archive n place).length + place + blockSize ≤ archive.length := by
  induction n generalizing place with
  | zero => exact absurd rfl hsome
  | succ n ih =>
    have hhead : HasHeader archive place → 2 * (blockSize : Int) ≤ archive.length - place :=
      fun hat => hat.1
    rcases headers_succ archive n place with ⟨-, heq⟩ | ⟨hat, -, heq⟩ | ⟨next, found, hstep, hat, heq⟩
    · exact absurd heq hsome
    · have := hhead hat
      rw [heq, List.length_singleton]
      omega
    · have hroom := hhead hat
      have hle : place + blockSize ≤ next := by
        refine h (n + 1) place ?_ next found hstep
        rw [heq]
        exact List.mem_cons_self
      rw [heq, List.length_cons]
      -- the last header has nothing behind it to go by, only the room that it needs itself
      by_cases hrest : headers archive n next = []
      · rw [hrest, List.length_nil]
        omega
      · have := ih (h.of_step hstep) hrest
        rw [blockSize] at *
        omega

/-- Whether a walk advances is told by the sizes that its headers state. -/
theorem advances_iff (archive : Bytes) (place : Int) :
    Advances archive place ↔ ∀ n, ∀ visited ∈ headers archive n place, ∀ size,
      (headerAt archive visited).size = some size → -(blockSize : Int) < size := by
  constructor
  · intro h n visited hvisited size hsize
    obtain ⟨found, hstep⟩ := step_eq_next (hasHeader_of_mem hvisited) hsize
    exact (le_next_iff visited size).mp (h n visited hvisited _ found hstep)
  · intro h n visited hvisited next found hstep
    obtain ⟨-, size, hsize, rfl⟩ := of_step_eq_next hstep
    exact (le_next_iff visited size).mpr (h n visited hvisited size hsize)

/-- A walk that advances visits at most as many headers as the archive has blocks. -/
theorem Advances.length_headers_le (h : Advances archive 0) (n : Nat) :
    (headers archive n 0).length ≤ archive.length / blockSize := by
  by_cases hnone : headers archive n 0 = []
  · rw [hnone]
    exact Nat.zero_le _
  · have := Archive.length_headers_le h hnone
    rw [blockSize] at *
    omega

/-- A walk that advances has ended within the limit on the number of steps. -/
theorem Advances.walk_ne_none (h : Advances archive 0) :
    walk archive (stepLimit archive) 0 ≠ none := by
  intro hnone
  have hlength := length_headers_of_walk hnone
  have hle := h.length_headers_le (stepLimit archive)
  have hlimit : stepLimit archive = 2 * archive.length + 2 * blockSize := rfl
  rw [blockSize] at *
  omega

/-- **The bound on a walk.** The walk through an archive advances by a block or more at
every header, visits at most as many headers as the archive has blocks, ends, and comes
across at most that many entries and warnings, all this exactly if no header that it
visits states a size of minus one block or less. -/
theorem walk_bounded_iff (archive : Bytes) :
    (Advances archive 0
      ∧ (∀ n, (headers archive n 0).length ≤ archive.length / blockSize)
      ∧ ∃ reading, read? archive = some reading
        ∧ reading.entries.length + reading.warnings.length ≤ archive.length / blockSize)
    ↔ ∀ n, ∀ visited ∈ headers archive n 0, ∀ size,
      (headerAt archive visited).size = some size → -(blockSize : Int) < size := by
  rw [← advances_iff]
  constructor
  · intro h
    exact h.1
  · intro h
    refine ⟨h, h.length_headers_le, ?_⟩
    obtain ⟨findings, hwalk⟩ := Option.ne_none_iff_exists'.mp h.walk_ne_none
    refine ⟨Reading.ofFindings findings, ?_, ?_⟩
    · rw [read?, hwalk, Option.map_some]
    · rw [length_ofFindings]
      exact Nat.le_trans (length_findings_le hwalk) (h.length_headers_le _)

/-- Sizes without a minus sign are enough for a walk to advance. -/
theorem advances_of_no_minus
    (h : ∀ n, ∀ visited ∈ headers archive n 0,
      0x2D ∉ fieldOf (between archive visited (visited + blockSize)) 124 12) :
    Advances archive 0 := by
  rw [advances_iff]
  intro n visited hvisited size hsize
  refine Int.not_le.mp fun hle => h n visited hvisited ?_
  have hneg : size < 0 := by
    rw [blockSize] at hle
    omega
  exact minus_mem_of_sizeOf? hsize hneg

/-- A header of a regular file with a name of one letter, which states its size as given. -/
def plainHeader (name : UInt8) (size : Bytes) : Bytes :=
  name :: List.replicate 123 0 ++ size ++ List.replicate (32 - size.length) 0
    ++ 0x30 :: List.replicate 355 0

/-- Three blocks, the second of which states a size of -2560 in octal. -/
def backwardArchive : Bytes :=
  plainHeader 0x61 [0x30] ++ plainHeader 0x62 [0x2D, 0x35, 0x30, 0x30, 0x30]
    ++ List.replicate 512 0

/-- The two headers of three blocks are visited twice, and four entries come of them. -/
theorem headers_backwardArchive :
    backwardArchive.length / blockSize = 3
      ∧ headers backwardArchive 5 0 = [0, 512, -1536, -1024]
      ∧ (read? backwardArchive).map (fun reading => reading.entries.length) = some 4 := by
  decide +kernel

/-! ## Walks without an end -/

/-- Where the walk goes on from a place. -/
def onward? (archive : Bytes) (place : Int) : Option Int :=
  match step archive place with
  | .next next _ => some next
  | _ => none

/-- Where the walk is after so many steps, if it gets as far. -/
def placeAfter? (archive : Bytes) : Nat → Int → Option Int
  | 0, place => some place
  | n + 1, place => (onward? archive place).bind (placeAfter? archive n)

/-- A walk has not ended if there is a place where it is. -/
theorem walk_eq_none_iff (archive : Bytes) (n : Nat) (place : Int) :
    walk archive n place = none ↔ placeAfter? archive n place ≠ none := by
  induction n generalizing place with
  | zero => simp [walk, placeAfter?]
  | succ n ih =>
    unfold walk placeAfter? onward?
    rcases step_cases archive place with ⟨-, hstep⟩ | ⟨-, -, hstep⟩ | ⟨size, found, -, -, hstep⟩
    · simp [hstep]
    · simp [hstep]
    · rw [hstep]
      dsimp only
      rw [Option.map_eq_none_iff, ih, Option.bind_some]

theorem placeAfter?_add (archive : Bytes) (m n : Nat) (place : Int) :
    placeAfter? archive (m + n) place
      = (placeAfter? archive m place).bind (placeAfter? archive n) := by
  induction m generalizing place with
  | zero => rw [Nat.zero_add, placeAfter?, Option.bind_some]
  | succ m ih =>
    rw [Nat.add_right_comm, placeAfter?, placeAfter?, Option.bind_assoc]
    congr 1
    funext next
    exact ih next

/-- A walk that has come so far was somewhere at every step before. -/
theorem placeAfter?_of_le {m n : Nat} (hle : m ≤ n) (h : placeAfter? archive n place ≠ none) :
    ∃ before, placeAfter? archive m place = some before := by
  refine Option.ne_none_iff_exists'.mp fun hnone => h ?_
  rw [← Nat.add_sub_cancel' hle, placeAfter?_add, hnone, Option.bind_none]

/-- A place where the walk goes on is not far outside the archive. -/
theorem HasHeader.bounds (h : HasHeader archive place) :
    -(archive.length + blockSize : Int) < place ∧ place < archive.length := by
  obtain ⟨hroom, hsome⟩ := h
  refine ⟨?_, by rw [blockSize] at hroom; omega⟩
  refine Int.not_le.mp fun hlow => ?_
  -- both ends of the block count back beyond the start of the archive
  have hempty : between archive place (place + blockSize) = [] := by
    have hstop : indexOf archive.length (place + blockSize) = 0 := by
      unfold indexOf
      split
      · omega
      · omega
    rw [between, hstop, Nat.zero_sub, List.take_zero]
  rw [hempty] at hsome
  cases hsome

/-- A walk that comes back to a place goes round for ever. -/
theorem placeAfter?_of_return {period : Nat} (hpos : 0 < period)
    (h : placeAfter? archive period place = some place) (n : Nat) :
    placeAfter? archive n place ≠ none := by
  -- going round `n` times takes `n` steps or more
  have hround (rounds : Nat) : placeAfter? archive (rounds * period) place = some place := by
    induction rounds with
    | zero => rw [Nat.zero_mul, placeAfter?]
    | succ rounds ih => rw [Nat.succ_mul, placeAfter?_add, ih, Option.bind_some, h]
  have hle : n ≤ n * period := Nat.le_mul_of_pos_right n hpos
  obtain ⟨before, hbefore⟩ := placeAfter?_of_le hle (by rw [hround]; exact Option.some_ne_none _)
  rw [hbefore]
  exact Option.some_ne_none _

/-- Where a walk is and from where it goes on, there is a header. -/
theorem hasHeader_of_placeAfter? {n : Nat} {before : Int}
    (hbefore : placeAfter? archive n place = some before)
    (h : placeAfter? archive (n + 1) place ≠ none) : HasHeader archive before := by
  rw [placeAfter?_add, hbefore, Option.bind_some, placeAfter?] at h
  rcases step_cases archive before with ⟨-, hstep⟩ | ⟨hat, -⟩ | ⟨_, _, hat, -⟩
  · have hend : onward? archive before = none := by rw [onward?, hstep]
    rw [hend, Option.bind_none] at h
    exact absurd rfl h
  · exact hat
  · exact hat

/-- A walk that has made as many steps as the limit has come to a place twice. -/
theorem exists_return (h : placeAfter? archive (stepLimit archive) place ≠ none) :
    ∃ start period again, 0 < period ∧ placeAfter? archive start place = some again
      ∧ placeAfter? archive period again = some again := by
  refine Classical.byContradiction fun hnever => ?_
  let visited (n : Nat) : Int := (placeAfter? archive n place).getD 0
  have hvisited (n : Nat) (hn : n ≤ stepLimit archive) :
      placeAfter? archive n place = some (visited n) := by
    obtain ⟨before, hbefore⟩ := placeAfter?_of_le hn h
    show _ = some ((placeAfter? archive n place).getD 0)
    rw [hbefore, Option.getD_some]
  -- the places are all different, and all of them lie in a range that is too short for them
  let range : List Int := (List.range (2 * archive.length + blockSize)).map
    fun (i : Nat) => (i : Int) - (archive.length + blockSize)
  have hnodup : ((List.range (stepLimit archive)).map visited).Nodup := by
    refine List.pairwise_map.mpr (List.pairwise_lt_range.imp_of_mem ?_)
    intro i j hi hj hlt heq
    have hj := List.mem_range.mp hj
    refine hnever ⟨i, j - i, visited i, by omega, hvisited i (by omega), ?_⟩
    have hlater := hvisited j (by omega)
    rw [← Nat.add_sub_cancel' (Nat.le_of_lt hlt), placeAfter?_add, hvisited i (by omega),
      Option.bind_some, Nat.add_sub_cancel' (Nat.le_of_lt hlt), ← heq] at hlater
    exact hlater
  have hsubset : (List.range (stepLimit archive)).map visited ⊆ range := by
    intro p hp
    obtain ⟨n, hn, rfl⟩ := List.mem_map.mp hp
    have hn := List.mem_range.mp hn
    obtain ⟨after, hafter⟩ := placeAfter?_of_le (Nat.succ_le_of_lt hn) h
    have hat := hasHeader_of_placeAfter? (hvisited n (by omega))
      (by rw [hafter]; exact Option.some_ne_none _)
    obtain ⟨hlow, hhigh⟩ := hat.bounds
    refine List.mem_map.mpr ⟨(visited n + (archive.length + blockSize)).toNat, ?_, by omega⟩
    exact List.mem_range.mpr (by omega)
  have hle := hnodup.length_le_of_subset hsubset
  simp only [range, List.length_map, List.length_range, stepLimit, blockSize] at hle
  omega

/-- **The limit is no loss.** An archive that is not read within the limit on the number of
steps is one through which the walk never ends. -/
theorem read?_eq_none_iff (archive : Bytes) :
    read? archive = none ↔ ∀ n, walk archive n 0 = none := by
  constructor
  · intro h n
    rw [read?, Option.map_eq_none_iff, walk_eq_none_iff] at h
    obtain ⟨start, period, again, hpos, hstart, hperiod⟩ := exists_return h
    have hlater : placeAfter? archive (start + n) 0 ≠ none := by
      rw [placeAfter?_add, hstart, Option.bind_some]
      exact placeAfter?_of_return hpos hperiod n
    obtain ⟨before, hbefore⟩ := placeAfter?_of_le (Nat.le_add_left n start) hlater
    rw [walk_eq_none_iff, hbefore]
    exact Option.some_ne_none _
  · intro h
    rw [read?, h, Option.map_none]

/-- Three blocks, the first of which states a size of -512 in octal. -/
def turningArchive : Bytes :=
  plainHeader 0x61 [0x2D, 0x31, 0x30, 0x30, 0x30] ++ List.replicate 1024 0

/-- The walk never leaves the header that leads back to itself. -/
theorem walk_turningArchive (n : Nat) : walk turningArchive n 0 = none := by
  have hturn : placeAfter? turningArchive 1 0 = some 0 := by decide +kernel
  rw [walk_eq_none_iff]
  exact placeAfter?_of_return Nat.one_pos hturn n

end LogSearch.Archive
