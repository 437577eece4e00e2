/-
Merging as a semilattice.

Ranges that may be missing are merged in one pass, which keeps the least start, the greatest end
and all sources of years apart from each other, and only puts them together when it is done. Then
the check of a range is made on bounds that no single range need have had. It never fails: what
the pass has gathered is always what the merge of the ranges so far has (`Gathered.Holds`), and
that is a range.

What a merge comes to depends on which ranges there are, and on nothing else: the least cover of
some ranges is the only one (`IsLeastCover.unique`), since two times of which neither is later
are the same. So the order of the ranges and their repetition are lost in a merge, and so are
groups, however deep they are nested (`Grouping.merged_eq`).
-/
import LogSearch.Proofs.Calendar.Order
import LogSearch.Proofs.TimeRange.Merging
import Mathlib.Data.List.ReduceOption
import Mathlib.Order.Bounds.Defs

set_option autoImplicit false

namespace LogSearch

open Calendar (DateTime)

namespace YearSource

/-- The weakest of some sources: the clock, if that is one of them, then the name of a file, then
what a caller has named. -/
def weakestOf (sources : List YearSource) : YearSource :=
  ([clock, filename, explicit].find? (· ∈ sources)).getD none

theorem weakestOf_cons (source : YearSource) (sources : List YearSource) :
    weakestOf (source :: sources) = source.weaker (weakestOf sources) := by
  unfold weakestOf
  simp only [List.find?_cons, List.find?_nil, List.mem_cons]
  cases source <;> by_cases hclock : clock ∈ sources <;> by_cases hname : filename ∈ sources
    <;> by_cases hcaller : explicit ∈ sources <;> simp [hclock, hname, hcaller, weaker, weakness]

theorem weaker_none (a : YearSource) : a.weaker none = a := by
  cases a <;> rfl

theorem weaker_comm (a b : YearSource) : a.weaker b = b.weaker a := by
  cases a <;> cases b <;> rfl

theorem eq_of_weakness_eq {a b : YearSource} (h : a.weakness = b.weakness) : a = b := by
  cases a <;> cases b <;> first | rfl | cases h

end YearSource

namespace TimeRange

/-! ## Ranges that may be missing -/

/-- A missing range adds nothing, and any other is covered along with the rest. -/
theorem merge_reduceOption_cons (r : Option TimeRange) (rs : List (Option TimeRange)) :
    merge (r :: rs).reduceOption = Option.merge cover r (merge rs.reduceOption) := by
  cases r with
  | none => simp
  | some r => rw [List.reduceOption_cons_of_some, merge_cons]

theorem merge_reduceOption_concat (rs : List (Option TimeRange)) (r : Option TimeRange) :
    merge (rs ++ [r]).reduceOption = Option.merge cover (merge rs.reduceOption) r := by
  rw [List.reduceOption_append, merge_append]
  cases r with
  | none => simp
  | some r => rfl

/-! ## One pass -/

/-- What a pass over ranges has gathered. -/
structure Gathered where
  start : Option DateTime := none
  stop : Option DateTime := none
  sources : List YearSource := []

namespace Gathered

def add (g : Gathered) : Option TimeRange → Gathered
  | none => g
  | some r =>
    { start := some <| match g.start with
        | none => r.start
        | some start => if r.start < start then r.start else start
      stop := some <| match g.stop with
        | none => r.stop
        | some stop => if stop < r.stop then r.stop else stop
      sources := r.yearSource :: g.sources }

/-- The range from the bounds that were gathered, if there are any. They are checked. -/
def range? (g : Gathered) : Except RangeError (Option TimeRange) :=
  match g.start, g.stop with
  | some start, some stop => (ofBounds start stop (.weakestOf g.sources)).map some
  | _, _ => .ok none

/-- That what has been gathered are the parts of a merge. -/
structure Holds (g : Gathered) (merged : Option TimeRange) : Prop where
  start : g.start = merged.map (·.start)
  stop : g.stop = merged.map (·.stop)
  weakest : YearSource.weakestOf g.sources = (merged.map (·.yearSource)).getD .none

theorem holds_empty : Holds {} none := ⟨rfl, rfl, rfl⟩

theorem Holds.add {g : Gathered} {merged : Option TimeRange} (h : g.Holds merged)
    (r : Option TimeRange) : (g.add r).Holds (Option.merge cover merged r) := by
  cases r with
  | none => simpa [Gathered.add] using h
  | some r =>
    cases merged with
    | none =>
      constructor
      · simp [Gathered.add, h.start]
      · simp [Gathered.add, h.stop]
      · have hweakest : YearSource.weakestOf g.sources = .none := h.weakest
        simp [Gathered.add, YearSource.weakestOf_cons, hweakest, YearSource.weaker_none]
    | some m =>
      constructor
      · simp [Gathered.add, h.start, cover]
      · simp [Gathered.add, h.stop, cover]
      · simp [Gathered.add, YearSource.weakestOf_cons, h.weakest, cover, YearSource.weaker_comm]

theorem Holds.range?_eq {g : Gathered} {merged : Option TimeRange} (h : g.Holds merged) :
    g.range? = .ok merged := by
  cases merged with
  | none => simp [range?, h.start, h.stop]
  | some m =>
    -- the bounds of a range are in order, so they pass the check
    simp only [range?, h.start, h.stop, h.weakest, Option.map_some, Option.getD_some, ofBounds,
      dif_pos m.ordered]
    rfl

end Gathered

/-- Merges ranges in one pass. -/
def gather (ranges : List (Option TimeRange)) : Except RangeError (Option TimeRange) :=
  (ranges.foldl Gathered.add {}).range?

/-- The pass goes on from what holds for the ranges behind it, `done`. -/
theorem Gathered.holds_foldl (g : Gathered) (done : List (Option TimeRange))
    (h : g.Holds (merge done.reduceOption)) (ranges : List (Option TimeRange)) :
    (ranges.foldl Gathered.add g).Holds (merge (done ++ ranges).reduceOption) := by
  induction ranges generalizing g done with
  | nil => rwa [List.append_nil]
  | cons r ranges ih =>
    have hadd := h.add r
    rw [← merge_reduceOption_concat] at hadd
    have hrest := ih (g.add r) (done ++ [r]) hadd
    rwa [List.append_assoc] at hrest

theorem gather_eq (ranges : List (Option TimeRange)) :
    gather ranges = .ok (merge ranges.reduceOption) :=
  (Gathered.holds_foldl {} [] Gathered.holds_empty ranges).range?_eq

/-! ## What a merge comes to -/

section Merged

variable {ranges others : List TimeRange} {r s : TimeRange}

theorem eq_or_cover_of_merge_cons {first : TimeRange} (h : merge (first :: ranges) = some r) :
    (ranges = [] ∧ first = r) ∨ ∃ m, merge ranges = some m ∧ cover first m = r := by
  rw [merge_cons] at h
  cases hrest : merge ranges with
  | none =>
    rw [hrest] at h
    exact .inl ⟨merge_eq_none_iff.mp hrest, Option.some.inj h⟩
  | some m =>
    rw [hrest] at h
    exact .inr ⟨m, rfl, Option.some.inj h⟩

/-- The bounds of a merge are among those of the ranges. -/
theorem exists_bounds_of_merge (h : merge ranges = some r) :
    (∃ x ∈ ranges, x.start = r.start) ∧ ∃ x ∈ ranges, x.stop = r.stop := by
  induction ranges generalizing r with
  | nil => cases h
  | cons first ranges ih =>
    have hfirst : first ∈ first :: ranges := List.mem_cons_self
    rcases eq_or_cover_of_merge_cons h with ⟨-, rfl⟩ | ⟨m, hrest, rfl⟩
    · exact ⟨⟨first, hfirst, rfl⟩, ⟨first, hfirst, rfl⟩⟩
    · obtain ⟨⟨x, hx, hstart⟩, ⟨y, hy, hstop⟩⟩ := ih hrest
      -- a cover takes each of its bounds from the first range or from the rest
      rw [cover_start, cover_stop]
      constructor
      · split
        · exact ⟨x, List.mem_cons_of_mem _ hx, hstart⟩
        · exact ⟨first, hfirst, rfl⟩
      · split
        · exact ⟨y, List.mem_cons_of_mem _ hy, hstop⟩
        · exact ⟨first, hfirst, rfl⟩

theorem yearSource_of_merge (h : merge ranges = some r) :
    r.yearSource = YearSource.weakestOf (ranges.map (·.yearSource)) := by
  induction ranges generalizing r with
  | nil => cases h
  | cons first ranges ih =>
    rw [List.map_cons, YearSource.weakestOf_cons]
    rcases eq_or_cover_of_merge_cons h with ⟨rfl, rfl⟩ | ⟨m, hrest, rfl⟩
    · exact (YearSource.weaker_none _).symm
    · rw [← ih hrest]
      rfl

/-- There is one least cover of some ranges, in whatever order and how often they are given. -/
theorem IsLeastCover.unique (hr : IsLeastCover ranges r) (hs : IsLeastCover others s)
    (hmem : ∀ x, x ∈ ranges ↔ x ∈ others) : r = s := by
  obtain ⟨hstart, hstop⟩ := hr.least s.start s.stop fun x hx => hs.covers x ((hmem x).mp hx)
  obtain ⟨hstart', hstop'⟩ := hs.least r.start r.stop fun x hx => hr.covers x ((hmem x).mpr hx)
  refine TimeRange.ext (DateTime.le_antisymm hstart' hstart) (DateTime.le_antisymm hstop hstop') ?_
  -- each of the sources of years is that of a range, and so no weaker than the other
  obtain ⟨x, hx, hxr⟩ := hr.attained
  obtain ⟨y, hy, hys⟩ := hs.attained
  have hle := hs.weakest x ((hmem x).mp hx)
  have hge := hr.weakest y ((hmem y).mpr hy)
  rw [hxr] at hle
  rw [hys] at hge
  exact YearSource.eq_of_weakness_eq (Nat.le_antisymm hle hge)

/-- Merging depends on nothing but which ranges there are. -/
theorem merge_congr (hmem : ∀ x, x ∈ ranges ↔ x ∈ others) : merge ranges = merge others := by
  have hempty : ranges = [] ↔ others = [] := by
    simp only [List.eq_nil_iff_forall_not_mem, hmem]
  cases hranges : merge ranges with
  | none =>
    rw [merge_eq_none_iff, hempty] at hranges
    rw [hranges, merge_nil]
  | some r =>
    cases hothers : merge others with
    | none =>
      rw [merge_eq_none_iff, ← hempty] at hothers
      rw [hothers] at hranges
      cases hranges
    | some s => rw [(isLeastCover_merge hranges).unique (isLeastCover_merge hothers) hmem]

end Merged

/-! ## Groups within groups -/

/-- Ranges in groups, which may hold groups themselves. -/
inductive Grouping where
  | range (r : Option TimeRange)
  | group (members : List Grouping)

namespace Grouping

mutual

/-- All ranges, whatever group they are in. -/
def ranges : Grouping → List (Option TimeRange)
  | range r => [r]
  | group members => rangesOfEach members

def rangesOfEach : List Grouping → List (Option TimeRange)
  | [] => []
  | member :: members => ranges member ++ rangesOfEach members

end

mutual

/-- The merge of a group from those of its members. -/
def merged : Grouping → Option TimeRange
  | range r => r
  | group members => merge (mergedEach members).reduceOption

def mergedEach : List Grouping → List (Option TimeRange)
  | [] => []
  | member :: members => merged member :: mergedEach members

end

mutual

/-- Merging group by group is merging all ranges. -/
theorem merged_eq : (g : Grouping) → g.merged = merge g.ranges.reduceOption
  | range r => by
    rw [merged, ranges, merge_reduceOption_cons]
    cases r <;> rfl
  | group members => by
    rw [merged, ranges]
    exact merge_mergedEach members

theorem merge_mergedEach : (members : List Grouping) →
    merge (mergedEach members).reduceOption = merge (rangesOfEach members).reduceOption
  | [] => rfl
  | member :: members => by
    rw [mergedEach, rangesOfEach, merge_reduceOption_cons, merge_mergedEach members,
      merged_eq member, List.reduceOption_append, merge_append]

end

end Grouping

/-- **Merging is a semilattice.** The one pass over ranges that may be missing never fails its
check. It finds nothing when no range is given, and only then, and else the least start, the
greatest end and the weakest source of years. What it finds is the same for any list in which the
same ranges are given, in whatever order and how often, and for the merges of groups in place of
the ranges in them, however deep groups are nested. -/
theorem merge_semilattice (ranges : List (Option TimeRange)) :
    let given := ranges.reduceOption
    gather ranges = .ok (merge given)
      ∧ (merge given = none ↔ ∀ r ∈ ranges, r = none)
      ∧ (∀ r ∈ merge given, IsLeast {t | ∃ x ∈ given, x.start = t} r.start
        ∧ IsGreatest {t | ∃ x ∈ given, x.stop = t} r.stop
        ∧ r.yearSource = YearSource.weakestOf (given.map (·.yearSource)))
      ∧ (∀ others : List (Option TimeRange), (∀ x, some x ∈ others ↔ some x ∈ ranges) →
        merge others.reduceOption = merge given)
      ∧ ∀ g : Grouping, g.ranges = ranges → g.merged = merge given := by
  intro given
  refine ⟨gather_eq ranges, ?_, ?_, ?_, ?_⟩
  · rw [merge_eq_none_iff, List.eq_nil_iff_forall_not_mem]
    simp only [given, List.reduceOption_mem_iff]
    constructor
    · intro hnone r hr
      cases r with
      | none => rfl
      | some r => exact absurd hr (hnone r)
    · intro hnone r hr
      cases hnone _ hr
  · intro r hr
    -- the ends are those of some ranges, and the cover bounds all others by them
    have hcover := isLeastCover_merge hr
    obtain ⟨hstart, hstop⟩ := exists_bounds_of_merge hr
    refine ⟨⟨hstart, ?_⟩, ⟨hstop, ?_⟩, yearSource_of_merge hr⟩
    · rintro t ⟨x, hx, rfl⟩
      exact (hcover.covers x hx).1
    · rintro t ⟨x, hx, rfl⟩
      exact (hcover.covers x hx).2
  · intro others hothers
    apply merge_congr
    intro x
    rw [List.reduceOption_mem_iff, List.reduceOption_mem_iff, hothers]
  · rintro g rfl
    exact g.merged_eq

end TimeRange

end LogSearch
