/-
Words whose capitals are letters of the operators.

The capital form of a character beyond ASCII can be made of ASCII letters: the dotless i gives
I, the long s gives S and the ligatures give FF, FI, FL and ST. The letters of AND, OR and NOT
are not enough for any of them. So a word has such capitals only if it has them in the ASCII
sense, and this is read off the table row by row.
-/
import LogSearch.Text.Uppercase

set_option autoImplicit false

namespace LogSearch.Text

/-- The letters of the operators. -/
def operatorLetters : List Char :=
  ['A', 'D', 'N', 'O', 'R', 'T']

/-- No row leads to one of the letters. -/
theorem operatorLetters_beside_upperRows : ∀ r ∈ upperRows, ∀ d ∈ operatorLetters,
    ¬(r.first + r.shift ≤ d.toNat ∧ d.toNat ≤ r.last + r.shift) := by
  have hall : (upperRows.all fun r => operatorLetters.all fun d =>
      decide ¬(r.first + r.shift ≤ d.toNat ∧ d.toNat ≤ r.last + r.shift)) = true := by
    decide +kernel
  intro r hr d hd
  exact of_decide_eq_true (List.all_eq_true.mp (List.all_eq_true.mp hall r hr) d hd)

/-- The longer forms have another character in them. -/
theorem operatorLetters_beside_upperForms : ∀ p ∈ upperForms,
    ∃ n ∈ p.2, Char.ofNat n ∉ operatorLetters := by
  decide +kernel

theorem toNat_of_mem_operatorLetters : ∀ d ∈ operatorLetters, 0 < d.toNat ∧ d.toNat < 0x80 := by
  simp [operatorLetters]

/-- A number stands for the character with this code, or for none and the null character. -/
theorem eq_toNat_ofNat {n : Nat} (h : 0 < (Char.ofNat n).toNat) : n = (Char.ofNat n).toNat := by
  by_cases hvalid : n.isValidChar
  · rw [Char.ofNat, dif_pos hvalid]
    rfl
  · rw [Char.ofNat, dif_neg hvalid] at h
    cases h

/-- The distance that a row gives does not lead to one of the letters. -/
theorem ofNat_shiftIn_not_mem {n : Nat} (h : 0x80 ≤ n) :
    Char.ofNat (n + shiftIn upperRows n).toNat ∉ operatorLetters := by
  intro hmem
  obtain ⟨hpos, hlt⟩ := toNat_of_mem_operatorLetters _ hmem
  have hcode := eq_toNat_ofNat hpos
  -- from here on the letter is only known by its code
  generalize Char.ofNat (n + shiftIn upperRows n).toNat = d at hmem hpos hlt hcode
  rw [shiftIn] at hcode
  split at hcode
  · rename_i r hr
    have hrange := List.find?_some hr
    simp only [Bool.and_eq_true, decide_eq_true_eq] at hrange
    have hbeside := operatorLetters_beside_upperRows r (List.mem_of_find?_eq_some hr) d hmem
    omega
  · omega

/-- The capital form of a character beyond ASCII has another character in it. -/
theorem exists_not_mem_upperChar {c : Char} (h : 0x80 ≤ c.toNat) :
    ∃ d ∈ upperChar c, d ∉ operatorLetters := by
  rw [upperChar, if_neg (Nat.not_lt.mpr h)]
  split
  · rename_i form hform
    obtain ⟨before, after, hforms, -⟩ := List.lookup_eq_some_iff.mp hform
    obtain ⟨n, hn, hother⟩ := operatorLetters_beside_upperForms (c.toNat, form) (by simp [hforms])
    exact ⟨_, List.mem_map_of_mem hn, hother⟩
  · exact ⟨_, List.mem_singleton_self _, ofNat_shiftIn_not_mem h⟩

theorem toUpper_of_not_ascii {c : Char} (h : 0x80 ≤ c.toNat) : c.toUpper = c := by
  have hbeyond : ¬('a'.val ≤ c.val ∧ c.val ≤ 'z'.val) := by
    rintro ⟨-, hlast⟩
    have hlast : c.toNat ≤ 122 := hlast
    omega
  exact dif_neg hbeyond

/-- **Capitals in the ASCII sense decide whether a word is an operator.** -/
theorem upper_eq_ofList_iff {word letters : List Char} (h : ∀ d ∈ letters, d ∈ operatorLetters) :
    upper (String.ofList word) = String.ofList letters ↔ word.map Char.toUpper = letters := by
  rw [upper, String.toList_ofList, String.ofList_inj]
  by_cases hascii : ∀ c ∈ word, c.toNat < 0x80
  · have hforms : word.map upperChar = word.map fun c => [c.toUpper] :=
      List.map_congr_left fun c hc => if_pos (hascii c hc)
    rw [List.flatMap_def, hforms, ← List.flatMap_def, ← List.map_eq_flatMap]
  · simp only [Classical.not_forall, Nat.not_lt] at hascii
    obtain ⟨c, hc, hcode⟩ := hascii
    constructor
    · rintro rfl
      obtain ⟨d, hd, hother⟩ := exists_not_mem_upperChar hcode
      exact absurd (h d (List.mem_flatMap.mpr ⟨c, hc, hd⟩)) hother
    · rintro rfl
      have hletter := h _ (List.mem_map_of_mem hc)
      rw [toUpper_of_not_ascii hcode] at hletter
      exact absurd hcode (Nat.not_le.mpr (toNat_of_mem_operatorLetters c hletter).2)

end LogSearch.Text
