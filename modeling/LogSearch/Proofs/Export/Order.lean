/-
The order of an export.

Records are put in order by their times, then by their sources, then by their numbers. Taken
together, the three are compared as a linear order compares (`isInOrder_iff`). So where no two
records agree in all three, sorting keeps nothing of the order in which the records came, and
neither does the text (`text_eq_of_perm`).
-/
import LogSearch.Export
import Mathlib.Data.Prod.Lex
import Mathlib.Data.String.Basic

set_option autoImplicit false

namespace LogSearch.Export

/-- What decides about the place of a record. -/
def key (r : Record) : Nat ×ₗ String ×ₗ Nat :=
  toLex (r.timestamp.toMicros, toLex (r.source, r.sequence))

theorem isInOrder_iff {a b : Record} : isInOrder a b = true ↔ key a ≤ key b := by
  rw [key, key, Prod.Lex.toLex_le_toLex, Prod.Lex.toLex_le_toLex, isInOrder]
  simp only [Calendar.DateTime.lt_iff]
  rcases lt_trichotomy a.timestamp.toMicros b.timestamp.toMicros with hbefore | hsame | hbehind
  · simp [hbefore]
  · rcases lt_trichotomy a.source b.source with hless | hequal | hmore
    · simp [hsame, hless]
    · simp [hsame, hequal]
    · simp [hsame, hmore, hmore.not_gt, hmore.ne']
  · simp [hbehind, hbehind.not_gt, hbehind.ne']

theorem pairwise_sorted (records : List Record) :
    (sorted records).Pairwise fun a b => isInOrder a b = true := by
  refine List.pairwise_mergeSort (fun a b c hab hbc => ?_) (fun a b => ?_) records
  · rw [isInOrder_iff] at hab hbc ⊢
    exact hab.trans hbc
  · rw [Bool.or_eq_true, isInOrder_iff, isInOrder_iff]
    exact le_total _ _

/-- Sorting erases the order in which records came, if their keys tell them apart. -/
theorem sorted_eq_of_perm {records others : List Record}
    (distinct : ∀ a ∈ records, ∀ b ∈ records, key a = key b → a = b)
    (h : records.Perm others) : sorted records = sorted others := by
  have hrecords := List.mergeSort_perm records isInOrder
  have hothers := List.mergeSort_perm others isInOrder
  refine List.Perm.eq_of_pairwise (fun a b ha hb hab hba => ?_) (pairwise_sorted records)
    (pairwise_sorted others) (hrecords.trans (h.trans hothers.symm))
  rw [isInOrder_iff] at hab hba
  exact distinct a (hrecords.mem_iff.mp ha) b (h.mem_iff.mpr (hothers.mem_iff.mp hb))
    (le_antisymm hab hba)

/-- **The text of an export** does not depend on the order in which its records came. -/
theorem text_eq_of_perm {records others : List Record}
    (distinct : ∀ a ∈ records, ∀ b ∈ records, key a = key b → a = b)
    (h : records.Perm others) : text records = text others := by
  rw [text, text, sorted_eq_of_perm distinct h]

end LogSearch.Export
