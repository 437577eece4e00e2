/-
Where one text occurs in another.

A keyword is looked for anywhere in a record and a file is classed by the end
of its name, so two tests are all that is needed. Both work on the characters,
where neither encoding nor positions get in the way.
-/

set_option autoImplicit false

namespace LogSearch.Text

/-- Whether `needle` occurs in the characters somewhere. -/
def occursIn (needle : List Char) : List Char → Bool
  | [] => needle.isEmpty
  | c :: cs => needle.isPrefixOf (c :: cs) || occursIn needle cs

/-- Whether the text ends in `ending`. -/
def endsIn (s ending : String) : Bool :=
  ending.toList.isSuffixOf s.toList

/-- Whether the text ends in one of the given endings. -/
def endsInAny (s : String) (endings : List String) : Bool :=
  endings.any (endsIn s)

/-- A text occurs exactly where it can be cut out of the middle. -/
theorem occursIn_iff {needle cs : List Char} :
    occursIn needle cs = true ↔ ∃ before after, cs = before ++ needle ++ after := by
  induction cs with
  | nil =>
    simp only [occursIn, List.isEmpty_iff]
    constructor
    · rintro rfl; exact ⟨[], [], rfl⟩
    · rintro ⟨before, after, h⟩
      simp only [List.nil_eq, List.append_eq_nil_iff] at h
      exact h.1.2
  | cons c cs ih =>
    simp only [occursIn, Bool.or_eq_true, List.isPrefixOf_iff_prefix, ih]
    constructor
    · rintro (⟨after, h⟩ | ⟨before, after, rfl⟩)
      · exact ⟨[], after, by simp [h]⟩
      · exact ⟨c :: before, after, by simp⟩
    · rintro ⟨before, after, h⟩
      cases before with
      | nil => exact .inl ⟨after, by simpa using h.symm⟩
      | cons b before =>
        simp only [List.cons_append, List.cons.injEq] at h
        exact .inr ⟨before, after, h.2⟩

end LogSearch.Text
