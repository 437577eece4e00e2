/-
Numbers in a fixed number of digits.

A number that fits is told by its digits, and its digits stand in the order of the number: the
last one only decides where the numbers in front of it are the same (`paddedDigits_lt_iff`). This
goes on to numbers in a row, each closed by a mark. Rows of one shape are in lexicographic order
exactly if the numbers in them are (`row_lt_row_iff`), which is why dates that are written from
the year down to the second can be sorted as texts. It hangs on the widths being the same: without
zeros in front of it a number loses its place, unless it fills the width by itself
(`toDigits_eq_paddedDigits`).
-/
import LogSearch.Text.Digit
import Mathlib.Algebra.Group.Nat.Defs
import Mathlib.Data.List.Forall2

set_option autoImplicit false

namespace LogSearch.Text

/-! ## Digits -/

theorem asciiDigit?_ofNat : ∀ d < 10, asciiDigit? (Char.ofNat (0x30 + d)) = some d := by
  decide

/-- No digit is a mark. -/
theorem ofNat_ne {d : Nat} {c : Char} (hd : d < 10) (hc : asciiDigit? c = none) :
    Char.ofNat (0x30 + d) ≠ c := by
  rintro rfl
  rw [asciiDigit?_ofNat d hd] at hc
  cases hc

theorem ofNat_lt_ofNat_iff :
    ∀ d < 10, ∀ e < 10, Char.ofNat (0x30 + d) < Char.ofNat (0x30 + e) ↔ d < e := by
  decide

theorem ofNat_eq_ofNat_iff :
    ∀ d < 10, ∀ e < 10, Char.ofNat (0x30 + d) = Char.ofNat (0x30 + e) ↔ d = e := by
  decide

theorem digitChar_eq : ∀ d < 10, Nat.digitChar d = Char.ofNat (0x30 + d) := by
  decide

theorem length_paddedDigits (width n : Nat) : (paddedDigits width n).length = width := by
  induction width generalizing n with
  | zero => rfl
  | succ width ih => rw [paddedDigits, List.length_append, ih, List.length_singleton]

theorem length_paddedDigits_eq (width n m : Nat) :
    (paddedDigits width n).length = (paddedDigits width m).length := by
  rw [length_paddedDigits, length_paddedDigits]

theorem exists_of_mem_paddedDigits {width n : Nat} {c : Char} (h : c ∈ paddedDigits width n) :
    ∃ d < 10, c = Char.ofNat (0x30 + d) := by
  induction width generalizing n with
  | zero => cases h
  | succ width ih =>
    rw [paddedDigits, List.mem_append, List.mem_singleton] at h
    rcases h with h | rfl
    · exact ih h
    · exact ⟨n % 10, Nat.mod_lt n (by decide), rfl⟩

/-- A number that fills the width has no zeros in front of it. -/
theorem toDigits_eq_paddedDigits (width : Nat) {n : Nat} (hlow : 10 ^ width ≤ n)
    (hhigh : n < 10 ^ (width + 1)) : Nat.toDigits 10 n = paddedDigits (width + 1) n := by
  induction width generalizing n with
  | zero =>
    rw [Nat.toDigits_of_lt_base (by omega), paddedDigits, paddedDigits, List.nil_append,
      Nat.mod_eq_of_lt (by omega), digitChar_eq n (by omega)]
  | succ width ih =>
    have hten : 10 ≤ n := Nat.le_trans (Nat.le_self_pow (Nat.succ_ne_zero width) 10) hlow
    have hfront := ih (n := n / 10) (by omega) (by omega)
    rw [Nat.toDigits_of_base_le (by decide) hten, hfront,
      digitChar_eq _ (Nat.mod_lt n (by decide)), paddedDigits.eq_2 n]

/-! ## The order of digits -/

/-- Of two texts with fronts of one length the fronts decide, or else what is behind them. -/
theorem append_lt_append_iff {α : Type} [LT α] [Std.Irrefl (α := α) (· < ·)] {xs ys xs' ys' : List α}
    (h : xs.length = ys.length) : xs ++ xs' < ys ++ ys' ↔ xs < ys ∨ xs = ys ∧ xs' < ys' := by
  induction xs generalizing ys with
  | nil =>
    obtain rfl := List.eq_nil_of_length_eq_zero h.symm
    simp
  | cons x xs ih =>
    cases ys with
    | nil => cases h
    | cons y ys =>
      rw [List.cons_append, List.cons_append, List.cons_lt_cons_iff, List.cons_lt_cons_iff,
        ih (Nat.succ.inj h), List.cons.injEq]
      constructor
      · rintro (hlt | ⟨rfl, hlt | ⟨rfl, hlt⟩⟩)
        · exact .inl (.inl hlt)
        · exact .inl (.inr ⟨rfl, hlt⟩)
        · exact .inr ⟨⟨rfl, rfl⟩, hlt⟩
      · rintro ((hlt | ⟨rfl, hlt⟩) | ⟨⟨rfl, rfl⟩, hlt⟩)
        · exact .inl hlt
        · exact .inr ⟨rfl, .inl hlt⟩
        · exact .inr ⟨rfl, .inr ⟨rfl, hlt⟩⟩

section Order

variable {width n m : Nat}

theorem paddedDigits_inj (hn : n < 10 ^ width) (hm : m < 10 ^ width) :
    paddedDigits width n = paddedDigits width m ↔ n = m := by
  induction width generalizing n m with
  | zero =>
    rw [Nat.pow_zero] at hn hm
    simp only [paddedDigits, true_iff]
    omega
  | succ width ih =>
    have hlast := ofNat_eq_ofNat_iff (n % 10) (Nat.mod_lt n (by decide)) (m % 10)
      (Nat.mod_lt m (by decide))
    rw [paddedDigits, paddedDigits, List.append_singleton_inj, ih (by omega) (by omega), hlast]
    omega

/-- Digits are in lexicographic order as the numbers are in theirs. -/
theorem paddedDigits_lt_iff (hn : n < 10 ^ width) (hm : m < 10 ^ width) :
    paddedDigits width n < paddedDigits width m ↔ n < m := by
  induction width generalizing n m with
  | zero =>
    rw [Nat.pow_zero] at hn hm
    simp only [paddedDigits, List.not_lt_nil, false_iff]
    omega
  | succ width ih =>
    have hlast := ofNat_lt_ofNat_iff (n % 10) (Nat.mod_lt n (by decide)) (m % 10)
      (Nat.mod_lt m (by decide))
    rw [paddedDigits, paddedDigits, append_lt_append_iff (length_paddedDigits_eq width _ _),
      ih (by omega) (by omega), paddedDigits_inj (by omega) (by omega), List.cons_lt_cons_iff, hlast]
    simp only [List.not_lt_nil, and_false, or_false]
    omega

end Order

/-! ## Numbers in a row -/

/-- Numbers in a row, each with its width and with the mark behind it. -/
def row : List (Nat × Char) → List Nat → List Char
  | (width, mark) :: shape, n :: ns => paddedDigits width n ++ mark :: row shape ns
  | _, _ => []

/-- Rows of one shape are in lexicographic order exactly if the numbers in them are. -/
theorem row_lt_row_iff {shape : List (Nat × Char)} {ns ms : List Nat}
    (hns : List.Forall₂ (fun part n => n < 10 ^ part.1) shape ns)
    (hms : List.Forall₂ (fun part m => m < 10 ^ part.1) shape ms) :
    row shape ns < row shape ms ↔ ns < ms := by
  induction hns generalizing ms with
  | nil =>
    cases hms
    simp [row]
  | cons hn hns ih =>
    cases hms with
    | cons hm hms =>
      rw [row, row, append_lt_append_iff (length_paddedDigits_eq _ _ _), paddedDigits_lt_iff hn hm,
        paddedDigits_inj hn hm, List.cons_lt_cons_iff, List.cons_lt_cons_iff, ih hms]
      simp

end LogSearch.Text
