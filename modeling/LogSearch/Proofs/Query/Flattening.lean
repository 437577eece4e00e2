/-
Expressions without needless levels.

AND under AND says the same as one AND, and likewise OR. Flattening splices the
operands of the inner one into the outer one, on all levels, and leaves the rest as it
is. What an operand contributes to a conjunction is `conjuncts`, one list for either
case, so a level is flattened by `flatMap`.

Three things are kept: what the expression says (`holdsInLowered_flatten`), its
keywords (`words_flatten`), and that a group has two operands or more
(`Grouped.flatten`). The expressions that flattening leaves alone are those that
alternate (`flatten_eq_self_iff`). The reason is that no operand of a flattened
conjunction is a conjunction, so a level that flattening leaves alone had none.
-/
import LogSearch.Query.Expr

set_option autoImplicit false

namespace LogSearch.Query.Expr

/-! ## Flattening -/

/-- What an operand contributes to a conjunction: its operands if it is one itself. -/
def conjuncts : Expr → List Expr
  | all es => es
  | e => [e]

/-- What an operand contributes to a disjunction: its operands if it is one itself. -/
def disjuncts : Expr → List Expr
  | any es => es
  | e => [e]

mutual

/-- The expression with AND under AND, and OR under OR, made one. -/
def flatten : Expr → Expr
  | keyword text => keyword text
  | not e => not (flatten e)
  | all es => all ((flattenEach es).flatMap conjuncts)
  | any es => any ((flattenEach es).flatMap disjuncts)

/-- Flattens some expressions. -/
def flattenEach : List Expr → List Expr
  | [] => []
  | e :: es => flatten e :: flattenEach es

end

theorem flattenEach_eq_map (es : List Expr) : flattenEach es = es.map flatten := by
  induction es with
  | nil => rfl
  | cons e es ih => rw [flattenEach, ih, List.map_cons]

theorem flatten_all (es : List Expr) :
    (all es).flatten = all (es.flatMap fun e => e.flatten.conjuncts) := by
  rw [flatten, flattenEach_eq_map, List.flatMap_map]

theorem flatten_any (es : List Expr) :
    (any es).flatten = any (es.flatMap fun e => e.flatten.disjuncts) := by
  rw [flatten, flattenEach_eq_map, List.flatMap_map]

/-- An expression that is no conjunction contributes itself. -/
theorem conjuncts_eq_singleton {e : Expr} (h : ∀ es, e ≠ all es) : e.conjuncts = [e] := by
  cases e with
  | all es => exact absurd rfl (h es)
  | _ => rfl

/-- An expression that is no disjunction contributes itself. -/
theorem disjuncts_eq_singleton {e : Expr} (h : ∀ es, e ≠ any es) : e.disjuncts = [e] := by
  cases e with
  | any es => exact absurd rfl (h es)
  | _ => rfl

/-- Flattening makes no conjunctions. -/
theorem flatten_ne_all {e : Expr} (h : ∀ es, e ≠ all es) (fs : List Expr) : e.flatten ≠ all fs := by
  cases e with
  | all es => exact absurd rfl (h es)
  | _ => exact fun heq => Expr.noConfusion heq

/-- Flattening makes no disjunctions. -/
theorem flatten_ne_any {e : Expr} (h : ∀ es, e ≠ any es) (fs : List Expr) : e.flatten ≠ any fs := by
  cases e with
  | any es => exact absurd rfl (h es)
  | _ => exact fun heq => Expr.noConfusion heq

/-! ## What is kept -/

/-- What an operand contributes to a conjunction holds where it holds itself. -/
theorem all_conjuncts (content : List Char) (e : Expr) :
    e.conjuncts.all (holdsInLowered content) = e.holdsInLowered content := by
  cases e with
  | all es => rw [conjuncts, holdsInLowered, allHold_eq_all]
  | _ => rw [conjuncts_eq_singleton (by rintro _ ⟨⟩), List.all_cons, List.all_nil, Bool.and_true]

/-- Some of what an operand contributes to a disjunction holds where it holds itself. -/
theorem any_disjuncts (content : List Char) (e : Expr) :
    e.disjuncts.any (holdsInLowered content) = e.holdsInLowered content := by
  cases e with
  | any es => rw [disjuncts, holdsInLowered, anyHolds_eq_any]
  | _ => rw [disjuncts_eq_singleton (by rintro _ ⟨⟩), List.any_cons, List.any_nil, Bool.or_false]

/-- **Flattening keeps what an expression says.** -/
theorem holdsInLowered_flatten (content : List Char) (e : Expr) :
    e.flatten.holdsInLowered content = e.holdsInLowered content := by
  induction e with
  | keyword text => rfl
  | not e ih => rw [flatten, holdsInLowered, holdsInLowered, ih]
  | all es ih =>
    rw [flatten_all, holdsInLowered, holdsInLowered, allHold_eq_all, allHold_eq_all,
      List.all_flatMap]
    simp only [all_conjuncts]
    rw [Bool.eq_iff_iff, List.all_eq_true, List.all_eq_true]
    exact forall_congr' fun e => forall_congr' fun he => by rw [ih e he]
  | any es ih =>
    rw [flatten_any, holdsInLowered, holdsInLowered, anyHolds_eq_any, anyHolds_eq_any,
      List.any_flatMap]
    simp only [any_disjuncts]
    rw [Bool.eq_iff_iff, List.any_eq_true, List.any_eq_true]
    exact exists_congr fun e => and_congr_right fun he => by rw [ih e he]

theorem flatMap_words_conjuncts (e : Expr) : e.conjuncts.flatMap words = e.words := by
  cases e with
  | all es => rw [conjuncts, words, wordsOfEach_eq_flatMap]
  | _ => rw [conjuncts_eq_singleton (by rintro _ ⟨⟩), List.flatMap_singleton]

theorem flatMap_words_disjuncts (e : Expr) : e.disjuncts.flatMap words = e.words := by
  cases e with
  | any es => rw [disjuncts, words, wordsOfEach_eq_flatMap]
  | _ => rw [disjuncts_eq_singleton (by rintro _ ⟨⟩), List.flatMap_singleton]

/-- Flattening keeps the keywords, repetitions and their order included. -/
theorem words_flatten (e : Expr) : e.flatten.words = e.words := by
  induction e with
  | keyword text => rfl
  | not e ih => rw [flatten, words, words, ih]
  | all es ih =>
    rw [flatten_all, words, words, wordsOfEach_eq_flatMap, wordsOfEach_eq_flatMap,
      List.flatMap_assoc]
    simp only [flatMap_words_conjuncts]
    rw [List.flatMap_def, List.flatMap_def, List.map_congr_left ih]
  | any es ih =>
    rw [flatten_any, words, words, wordsOfEach_eq_flatMap, wordsOfEach_eq_flatMap,
      List.flatMap_assoc]
    simp only [flatMap_words_disjuncts]
    rw [List.flatMap_def, List.flatMap_def, List.map_congr_left ih]

/-! ## Groups -/

/-- Every AND and every OR has two operands or more. -/
inductive Grouped : Expr → Prop where
  | keyword (text : String) : Grouped (keyword text)
  | not {e : Expr} (h : Grouped e) : Grouped (not e)
  | all {es : List Expr} (two : 2 ≤ es.length) (h : ∀ e ∈ es, Grouped e) : Grouped (all es)
  | any {es : List Expr} (two : 2 ≤ es.length) (h : ∀ e ∈ es, Grouped e) : Grouped (any es)

theorem Grouped.conjuncts_ne_nil {e : Expr} (h : Grouped e) : e.conjuncts ≠ [] := by
  cases h with
  | all two _ =>
    rw [conjuncts]
    rintro rfl
    simp at two
  | _ => exact List.cons_ne_nil _ _

theorem Grouped.disjuncts_ne_nil {e : Expr} (h : Grouped e) : e.disjuncts ≠ [] := by
  cases h with
  | any two _ =>
    rw [disjuncts]
    rintro rfl
    simp at two
  | _ => exact List.cons_ne_nil _ _

/-- Joining what an operand contributes makes up the operand again. -/
theorem Grouped.join_conjuncts {e : Expr} (h : Grouped e) : join .all e.conjuncts = e := by
  cases h with
  | @all es two _ =>
    rw [conjuncts]
    rcases es with _ | ⟨e, _ | ⟨f, es⟩⟩
    · simp at two
    · simp at two
    · rfl
  | _ => rfl

/-- Joining what an operand contributes makes up the operand again. -/
theorem Grouped.join_disjuncts {e : Expr} (h : Grouped e) : join .any e.disjuncts = e := by
  cases h with
  | @any es two _ =>
    rw [disjuncts]
    rcases es with _ | ⟨e, _ | ⟨f, es⟩⟩
    · simp at two
    · simp at two
    · rfl
  | _ => rfl

/-- Where every operand contributes something, there are no fewer contributions than operands. -/
theorem length_le_length_flatMap {α β : Type} {f : α → List β} {xs : List α}
    (h : ∀ x ∈ xs, f x ≠ []) : xs.length ≤ (xs.flatMap f).length := by
  induction xs with
  | nil => exact Nat.le_refl _
  | cons x xs ih =>
    have hx := List.length_pos_iff.mpr (h x (List.mem_cons_self ..))
    have hxs := ih fun y hy => h y (List.mem_cons_of_mem _ hy)
    rw [List.length_cons, List.flatMap_cons, List.length_append]
    omega

theorem Grouped.mem_conjuncts {e f : Expr} (h : Grouped e) (hf : f ∈ e.conjuncts) : Grouped f := by
  cases h with
  | all two hes => exact hes f hf
  | keyword text => exact List.mem_singleton.mp hf ▸ .keyword text
  | not h => exact List.mem_singleton.mp hf ▸ .not h
  | any two hes => exact List.mem_singleton.mp hf ▸ .any two hes

theorem Grouped.mem_disjuncts {e f : Expr} (h : Grouped e) (hf : f ∈ e.disjuncts) : Grouped f := by
  cases h with
  | any two hes => exact hes f hf
  | keyword text => exact List.mem_singleton.mp hf ▸ .keyword text
  | not h => exact List.mem_singleton.mp hf ▸ .not h
  | all two hes => exact List.mem_singleton.mp hf ▸ .all two hes

/-- Flattening leaves no group with fewer than two operands. -/
theorem Grouped.flatten {e : Expr} (h : Grouped e) : Grouped e.flatten := by
  induction h with
  | keyword text => exact .keyword text
  | not _ ih => exact .not ih
  | @all es two _ ih =>
    rw [flatten_all]
    -- splicing may add operands and cannot take any away
    refine .all (Nat.le_trans two ?_) ?_
    · exact length_le_length_flatMap fun e he => (ih e he).conjuncts_ne_nil
    · intro f hf
      obtain ⟨e, he, hf⟩ := List.mem_flatMap.mp hf
      exact (ih e he).mem_conjuncts hf
  | @any es two _ ih =>
    rw [flatten_any]
    refine .any (Nat.le_trans two ?_) ?_
    · exact length_le_length_flatMap fun e he => (ih e he).disjuncts_ne_nil
    · intro f hf
      obtain ⟨e, he, hf⟩ := List.mem_flatMap.mp hf
      exact (ih e he).mem_disjuncts hf

/-! ## What flattening leaves alone -/

/-- No AND stands directly under AND, and no OR directly under OR. -/
inductive Alternates : Expr → Prop where
  | keyword (text : String) : Alternates (keyword text)
  | not {e : Expr} (h : Alternates e) : Alternates (not e)
  | all {es : List Expr} (h : ∀ e ∈ es, Alternates e) (noAll : ∀ fs, Expr.all fs ∉ es) :
    Alternates (all es)
  | any {es : List Expr} (h : ∀ e ∈ es, Alternates e) (noAny : ∀ fs, Expr.any fs ∉ es) :
    Alternates (any es)

/-- No operand of a flattened conjunction is a conjunction. -/
theorem all_not_mem_conjuncts_flatten (e : Expr) (fs : List Expr) :
    all fs ∉ e.flatten.conjuncts := by
  induction e with
  | all es ih =>
    rw [flatten_all, conjuncts]
    intro hmem
    obtain ⟨e, he, hmem⟩ := List.mem_flatMap.mp hmem
    exact ih e he hmem
  | _ =>
    intro hmem
    exact Expr.noConfusion (List.mem_singleton.mp hmem)

/-- No operand of a flattened disjunction is a disjunction. -/
theorem any_not_mem_disjuncts_flatten (e : Expr) (fs : List Expr) :
    any fs ∉ e.flatten.disjuncts := by
  induction e with
  | any es ih =>
    rw [flatten_any, disjuncts]
    intro hmem
    obtain ⟨e, he, hmem⟩ := List.mem_flatMap.mp hmem
    exact ih e he hmem
  | _ =>
    intro hmem
    exact Expr.noConfusion (List.mem_singleton.mp hmem)

/-- Without conjunctions among them, operands are only flattened themselves. -/
theorem flatMap_conjuncts_flatten {es : List Expr} (h : ∀ fs, all fs ∉ es) :
    (es.flatMap fun e => e.flatten.conjuncts) = es.map flatten := by
  rw [List.map_eq_flatMap, List.flatMap_def, List.flatMap_def]
  refine congrArg List.flatten (List.map_congr_left fun e he => ?_)
  exact conjuncts_eq_singleton (flatten_ne_all fun fs heq => h fs (heq ▸ he))

/-- Without disjunctions among them, operands are only flattened themselves. -/
theorem flatMap_disjuncts_flatten {es : List Expr} (h : ∀ fs, any fs ∉ es) :
    (es.flatMap fun e => e.flatten.disjuncts) = es.map flatten := by
  rw [List.map_eq_flatMap, List.flatMap_def, List.flatMap_def]
  refine congrArg List.flatten (List.map_congr_left fun e he => ?_)
  exact disjuncts_eq_singleton (flatten_ne_any fun fs heq => h fs (heq ▸ he))

theorem map_flatten_eq_self_iff {es : List Expr} :
    es.map flatten = es ↔ ∀ e ∈ es, e.flatten = e := by
  have h : es.map flatten = es.map id ↔ ∀ e ∈ es, e.flatten = id e := List.map_inj_left
  rw [List.map_id] at h
  exact h

/-- **Flattening leaves alone exactly what alternates.** -/
theorem flatten_eq_self_iff (e : Expr) : e.flatten = e ↔ Alternates e := by
  induction e with
  | keyword text => exact ⟨fun _ => .keyword text, fun _ => rfl⟩
  | not e ih =>
    constructor
    · intro h
      rw [flatten] at h
      exact .not (ih.mp (Expr.not.inj h))
    · rintro (_ | h)
      rw [flatten, ih.mpr h]
  | all es ih =>
    constructor
    · intro h
      rw [flatten_all] at h
      have hes := Expr.all.inj h
      -- the operands are those of a flattened conjunction, so none of them is one
      have hnone : ∀ fs, Expr.all fs ∉ es := by
        intro fs hmem
        rw [← hes] at hmem
        obtain ⟨e, -, hmem⟩ := List.mem_flatMap.mp hmem
        exact all_not_mem_conjuncts_flatten e fs hmem
      rw [flatMap_conjuncts_flatten hnone, map_flatten_eq_self_iff] at hes
      exact .all (fun e he => (ih e he).mp (hes e he)) hnone
    · rintro (_ | _ | ⟨halternate, hnone⟩)
      rw [flatten_all, flatMap_conjuncts_flatten hnone,
        map_flatten_eq_self_iff.mpr fun e he => (ih e he).mpr (halternate e he)]
  | any es ih =>
    constructor
    · intro h
      rw [flatten_any] at h
      have hes := Expr.any.inj h
      have hnone : ∀ fs, Expr.any fs ∉ es := by
        intro fs hmem
        rw [← hes] at hmem
        obtain ⟨e, -, hmem⟩ := List.mem_flatMap.mp hmem
        exact any_not_mem_disjuncts_flatten e fs hmem
      rw [flatMap_disjuncts_flatten hnone, map_flatten_eq_self_iff] at hes
      exact .any (fun e he => (ih e he).mp (hes e he)) hnone
    · rintro (_ | _ | _ | ⟨halternate, hnone⟩)
      rw [flatten_any, flatMap_disjuncts_flatten hnone,
        map_flatten_eq_self_iff.mpr fun e he => (ih e he).mpr (halternate e he)]

end LogSearch.Query.Expr
