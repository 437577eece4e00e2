/-
Cutting a text at a separator character.

`cutAt` finds the first separator and answers what stands before it and, if
there is one, what stands behind it. A missing separator and a separator at the
very end are thus different answers, which is what quotes and lines both need.
-/

set_option autoImplicit false

namespace LogSearch.Text

/-- The characters up to the first separator, and those behind it if there is one. -/
def cutAt (sep : Char) : List Char → List Char × Option (List Char)
  | [] => ([], none)
  | c :: cs =>
    if c = sep then ([], some cs)
    else (c :: (cutAt sep cs).1, (cutAt sep cs).2)

theorem length_lt_of_cutAt {sep : Char} {cs rest : List Char} (h : (cutAt sep cs).2 = some rest) :
    rest.length < cs.length := by
  induction cs with
  | nil => simp [cutAt] at h
  | cons c cs ih =>
    rw [cutAt] at h
    split at h
    · simp_all
    · exact Nat.lt_succ_of_lt (ih h)

theorem cutAt_of_not_mem {sep : Char} {cs : List Char} (h : sep ∉ cs) :
    cutAt sep cs = (cs, none) := by
  induction cs with
  | nil => rfl
  | cons c cs ih =>
    rw [List.mem_cons, not_or] at h
    rw [cutAt, if_neg (Ne.symm h.1), ih h.2]

theorem cutAt_append {sep : Char} {cs : List Char} (h : sep ∉ cs) (rest : List Char) :
    cutAt sep (cs ++ sep :: rest) = (cs, some rest) := by
  induction cs with
  | nil => rw [List.nil_append, cutAt, if_pos rfl]
  | cons c cs ih =>
    rw [List.mem_cons, not_or] at h
    rw [List.cons_append, cutAt, if_neg (Ne.symm h.1), ih h.2]

/-- The pieces between separators, one more than there are separators. -/
def splitChars (sep : Char) (cs : List Char) : List (List Char) :=
  (cutAt sep cs).1 ::
    match _h : (cutAt sep cs).2 with
    | none => []
    | some rest => splitChars sep rest
termination_by cs.length
decreasing_by exact length_lt_of_cutAt (by assumption)

/-- The pieces of a text between separators. -/
def splitOn (sep : Char) (s : String) : List String :=
  (splitChars sep s.toList).map String.ofList

end LogSearch.Text
