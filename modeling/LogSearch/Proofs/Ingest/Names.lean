/-
What the end of a name decides.

A file is classed by the lower-case form of its name. Lower-casing is no map on characters, as a
sigma is written differently at the end of a word, but an end that is in lower case already stays
as it is whatever comes in front of it (`Text.exists_lowerAfter_append`). So a name that ends in
`.log` is that of a log in all respects, and one that ends in `.tar` is that of a bundle which is
not compressed.
-/
import LogSearch.Ingest

set_option autoImplicit false

namespace LogSearch

namespace Text

theorem endsIn_iff {s ending : String} :
    endsIn s ending = true ↔ ending.toList <:+ s.toList :=
  List.isSuffixOf_iff_suffix

/-- A text does not end in two endings unless one of them ends in the other. -/
theorem endsIn_eq_false {s ending other : String} (h : endsIn s ending = true)
    (hlonger : ¬ ending.toList <:+ other.toList) (hshorter : ¬ other.toList <:+ ending.toList) :
    endsIn s other = false := by
  rw [← Bool.not_eq_true, endsIn_iff]
  intro hother
  rcases List.suffix_or_suffix_of_suffix (endsIn_iff.mp h) hother with hsuffix | hsuffix
  · exact hlonger hsuffix
  · exact hshorter hsuffix

theorem endsInAny_eq_false {s ending : String} {endings : List String}
    (h : endsIn s ending = true)
    (hlonger : ∀ other ∈ endings, ¬ ending.toList <:+ other.toList)
    (hshorter : ∀ other ∈ endings, ¬ other.toList <:+ ending.toList) :
    endsInAny s endings = false := by
  rw [endsInAny, List.any_eq_false]
  intro other hother
  rw [endsIn_eq_false h (hlonger other hother) (hshorter other hother)]
  exact Bool.false_ne_true

/-- Whether a character stands for itself in lower case, wherever it stands. -/
def IsLowered (c : Char) : Prop :=
  c ≠ 'Σ' ∧ lowerChar c = [c]

instance (c : Char) : Decidable (IsLowered c) :=
  inferInstanceAs (Decidable (_ ∧ _))

theorem lowerAfter_of_isLowered {cs : List Char} (h : ∀ c ∈ cs, IsLowered c)
    (afterCased : Bool) : lowerAfter afterCased cs = cs := by
  induction cs generalizing afterCased with
  | nil => rfl
  | cons c cs ih =>
    obtain ⟨⟨hsigma, hc⟩, hcs⟩ := List.forall_mem_cons.mp h
    rw [lowerAfter, if_neg hsigma, hc, ih hcs]
    rfl

/-- **An end in lower case.** Lower-casing leaves it as it is. -/
theorem exists_lowerAfter_append {ending : List Char} (h : ∀ c ∈ ending, IsLowered c)
    (front : List Char) (afterCased : Bool) :
    ∃ lowered, lowerAfter afterCased (front ++ ending) = lowered ++ ending := by
  induction front generalizing afterCased with
  | nil => exact ⟨[], lowerAfter_of_isLowered h afterCased⟩
  | cons c front ih =>
    obtain ⟨lowered, hlowered⟩ := ih (if isCaseIgnorable c then afterCased else isCased c)
    rw [List.cons_append, lowerAfter, hlowered, ← List.append_assoc]
    exact ⟨_, rfl⟩

theorem endsIn_lower {s ending : String} (h : ∀ c ∈ ending.toList, IsLowered c)
    (hends : endsIn s ending = true) : endsIn (lower s) ending = true := by
  obtain ⟨front, hfront⟩ := endsIn_iff.mp hends
  obtain ⟨lowered, hlowered⟩ := exists_lowerAfter_append h front false
  rw [endsIn_iff, lower, String.toList_ofList, lowerChars, ← hfront, hlowered]
  exact List.suffix_append lowered _

end Text

namespace Ingest

variable {name : String}

theorem isLowered_log : ∀ c ∈ ".log".toList, Text.IsLowered c := by
  have hall : ".log".toList.all (fun c => decide (Text.IsLowered c)) = true := by decide
  simpa only [List.all_eq_true, decide_eq_true_eq] using hall

/-- The name of a log is no name of a bundle. -/
theorem isBundleName_of_log (h : Text.endsIn name ".log" = true) : isBundleName name = false := by
  have hlower := Text.endsIn_lower isLowered_log h
  have hcompressed : isCompressedBundle name = false :=
    Text.endsInAny_eq_false hlower (by decide) (by decide)
  rw [isBundleName, hcompressed, Text.endsIn_eq_false hlower (by decide) (by decide)]
  rfl

/-- In a bundle of a user the name of a log is taken for that of a log. -/
theorem isLogEntry_of_log (h : Text.endsIn name ".log" = true) :
    isLogEntry .user name = true := by
  obtain ⟨front, hfront⟩ := Text.endsIn_iff.mp h
  obtain ⟨lowered, hlowered⟩ := Text.exists_lowerAfter_append isLowered_log front false
  have hlog : Text.occursIn "log".toList (Text.lowerChars name.toList) = true := by
    rw [Text.occursIn_iff, Text.lowerChars, ← hfront, hlowered]
    exact ⟨lowered ++ ['.'], [], by simp⟩
  have hend : Text.endsInAny name [".gz", ".log", ".zst"] = true := by
    simp only [Text.endsInAny, List.any_cons, h, Bool.true_or, Bool.or_true]
  rw [isLogEntry, hlog, hend]
  rfl

/-- A plain archive is not unpacked. -/
theorem isCompressedBundle_of_tar (h : Text.endsIn (Text.lower name) ".tar" = true) :
    isCompressedBundle name = false :=
  Text.endsInAny_eq_false h (by decide) (by decide)

end Ingest

end LogSearch
