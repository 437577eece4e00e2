/-
Merging ranges.

What a merge comes to is told twice. As an operation, merging is a fold of the associative
`cover`, so ranges may be merged in groups first and the groups afterwards
(`merge_filterMap_merge`): a bundle carries the merge of its logs, and merging bundles is the
same as merging all their logs. As a bound, a merge is the least range that covers what was
merged, dated as surely as the least sure of them (`isLeastCover_merge`).
-/
import LogSearch.TimeRange

set_option autoImplicit false

namespace LogSearch

open Calendar (DateTime)

theorem YearSource.weaker_assoc (a b c : YearSource) :
    (a.weaker b).weaker c = a.weaker (b.weaker c) := by
  cases a <;> cases b <;> cases c <;> rfl

namespace TimeRange

/-! ## Merging in groups -/

theorem cover_start (a b : TimeRange) :
    (cover a b).start = if b.start < a.start then b.start else a.start := rfl

theorem cover_stop (a b : TimeRange) :
    (cover a b).stop = if a.stop < b.stop then b.stop else a.stop := rfl

/-- Choosing the later one of two things again and again, where the first one stays unless it is
overtaken. It does not matter which two are compared first. -/
theorem choose_assoc {α : Type} (overtakes : α → α → Prop) [DecidableRel overtakes]
    (trans : ∀ {x y z}, overtakes x y → overtakes y z → overtakes x z)
    (stays : ∀ {x y z}, ¬ overtakes x y → ¬ overtakes y z → ¬ overtakes x z) (a b c : α) :
    (if overtakes (if overtakes a b then b else a) c then c else if overtakes a b then b else a)
      = if overtakes a (if overtakes b c then c else b) then (if overtakes b c then c else b)
        else a := by
  by_cases hab : overtakes a b
  · by_cases hbc : overtakes b c
    · have hac := trans hab hbc
      simp only [hab, hbc, hac, if_true]
    · simp only [hab, hbc, if_true, if_false]
  · by_cases hbc : overtakes b c
    · simp only [hab, hbc, if_true, if_false]
    · have hac := stays hab hbc
      simp only [hab, hbc, hac, if_false]

theorem cover_assoc (a b c : TimeRange) : cover (cover a b) c = cover a (cover b c) := by
  refine TimeRange.ext ?_ ?_ (YearSource.weaker_assoc _ _ _)
  · refine choose_assoc (fun s t : DateTime => t < s) ?_ ?_ a.start b.start c.start
    · intro s t u hst htu
      exact Nat.lt_trans htu hst
    · intro s t u hst htu
      rw [DateTime.lt_iff] at hst htu ⊢
      omega
  · refine choose_assoc (fun s t : DateTime => s < t) ?_ ?_ a.stop b.stop c.stop
    · intro s t u hst htu
      exact Nat.lt_trans hst htu
    · intro s t u hst htu
      rw [DateTime.lt_iff] at hst htu ⊢
      omega

@[simp] theorem merge_nil : merge [] = none := rfl

theorem merge_eq_none_iff {ranges : List TimeRange} : merge ranges = none ↔ ranges = [] := by
  cases ranges with
  | nil => simp
  | cons r rs => simp [merge]

theorem merge_cons (r : TimeRange) (rs : List TimeRange) :
    merge (r :: rs) = Option.merge cover (some r) (merge rs) := by
  cases rs with
  | nil => rfl
  | cons s rs =>
    -- the fold starts with the cover of the first two, from which the first one is taken out
    have hfold : ∀ (t : TimeRange) (ts : List TimeRange), ts.foldl cover (cover r t)
        = cover r (ts.foldl cover t) := by
      intro t ts
      induction ts generalizing t with
      | nil => rfl
      | cons u ts ih => rw [List.foldl_cons, List.foldl_cons, cover_assoc, ih]
    simp only [merge, List.foldl_cons, hfold, Option.merge]

theorem merge_append (xs ys : List TimeRange) :
    merge (xs ++ ys) = Option.merge cover (merge xs) (merge ys) := by
  induction xs with
  | nil => simp
  | cons x xs ih =>
    rw [List.cons_append, merge_cons, ih, merge_cons]
    cases merge xs with
    | none => simp
    | some m =>
      cases merge ys with
      | none => rfl
      | some n => simp only [Option.merge, cover_assoc]

/-- **Merging in groups.** Ranges may be merged group by group, and empty groups do not count. -/
theorem merge_filterMap_merge (groups : List (List TimeRange)) :
    merge (groups.filterMap merge) = merge groups.flatten := by
  induction groups with
  | nil => rfl
  | cons group groups ih =>
    rw [List.flatten_cons, merge_append, ← ih]
    cases hgroup : merge group with
    | none => rw [List.filterMap_cons_none hgroup]; simp
    | some r => rw [List.filterMap_cons_some hgroup, merge_cons]

/-! ## The least range -/

/-- The least range that covers all of some ranges. Its year is as unsure as the least sure one
among theirs. -/
structure IsLeastCover (ranges : List TimeRange) (r : TimeRange) : Prop where
  covers : ∀ x ∈ ranges, r.start ≤ x.start ∧ x.stop ≤ r.stop
  least : ∀ start stop : DateTime, (∀ x ∈ ranges, start ≤ x.start ∧ x.stop ≤ stop) →
    start ≤ r.start ∧ r.stop ≤ stop
  weakest : ∀ x ∈ ranges, x.yearSource.weakness ≤ r.yearSource.weakness
  attained : ∃ x ∈ ranges, x.yearSource = r.yearSource

theorem isLeastCover_singleton (r : TimeRange) : IsLeastCover [r] r := by
  constructor
  · intro x hx
    rw [List.mem_singleton.mp hx]
    exact ⟨Nat.le_refl _, Nat.le_refl _⟩
  · intro start stop h
    exact h r List.mem_cons_self
  · intro x hx
    obtain rfl := List.mem_singleton.mp hx
    exact Nat.le_refl _
  · exact ⟨r, List.mem_cons_self, rfl⟩

theorem IsLeastCover.concat {ranges : List TimeRange} {r : TimeRange} (h : IsLeastCover ranges r)
    (x : TimeRange) : IsLeastCover (ranges ++ [x]) (cover r x) := by
  -- the ends of the cover, in the numbers that the order goes by
  have hstart : (cover r x).start.toMicros = min r.start.toMicros x.start.toMicros := by
    rw [cover_start]
    simp only [DateTime.lt_iff]
    split <;> omega
  have hstop : (cover r x).stop.toMicros = max r.stop.toMicros x.stop.toMicros := by
    rw [cover_stop]
    simp only [DateTime.lt_iff]
    split <;> omega
  constructor
  · intro y hy
    rw [DateTime.le_iff, DateTime.le_iff, hstart, hstop]
    rcases List.mem_append.mp hy with hy | hy
    · obtain ⟨hlow, hhigh⟩ := h.covers y hy
      rw [DateTime.le_iff] at hlow hhigh
      omega
    · rw [List.mem_singleton.mp hy]
      omega
  · intro start stop hall
    obtain ⟨hlow, hhigh⟩ := h.least start stop fun y hy => hall y (List.mem_append_left _ hy)
    obtain ⟨hlow', hhigh'⟩ := hall x (List.mem_append_right _ List.mem_cons_self)
    rw [DateTime.le_iff] at hlow hhigh hlow' hhigh' ⊢
    rw [DateTime.le_iff, hstart, hstop]
    omega
  · intro y hy
    simp only [cover, YearSource.weaker]
    rcases List.mem_append.mp hy with hy | hy
    · have hle := h.weakest y hy
      split <;> omega
    · rw [List.mem_singleton.mp hy]
      split <;> omega
  · simp only [cover, YearSource.weaker]
    split
    · exact ⟨x, List.mem_append_right _ List.mem_cons_self, rfl⟩
    · obtain ⟨y, hy, hsource⟩ := h.attained
      exact ⟨y, List.mem_append_left _ hy, hsource⟩

/-- **A merge is the least cover.** -/
theorem isLeastCover_merge {ranges : List TimeRange} {r : TimeRange} (h : merge ranges = some r) :
    IsLeastCover ranges r := by
  have hfold : ∀ (rest done : List TimeRange) (s : TimeRange), IsLeastCover done s →
      IsLeastCover (done ++ rest) (rest.foldl cover s) := by
    intro rest
    induction rest with
    | nil =>
      intro done s hs
      rwa [List.append_nil]
    | cons x rest ih =>
      intro done s hs
      have hrest := ih (done ++ [x]) (cover s x) (hs.concat x)
      rwa [List.append_assoc] at hrest
  cases ranges with
  | nil => cases h
  | cons first rest =>
    cases h
    exact hfold rest [first] first (isLeastCover_singleton first)

end TimeRange

end LogSearch
