/-
Feeding lines without ending the input.

`Assembler.records` runs over all lines and then flushes. A search, however, may
stop between any two lines, and what it holds at that point is what `feed` alone
has completed: the open record is not among it. So this file splits the full
parse into the part that feeding completes and the part that the flush adds.

* `closed_append` cuts the fed part anywhere, since the assembler that comes out
  of the first lines is all that the later ones depend on;
* `records_append` does the same for the full parse, and from it
  `closed_isPrefix_records`: whatever is stopped early has a prefix of the full
  parse, with the same contents and numbers.
-/
import LogSearch.Record

set_option autoImplicit false

namespace LogSearch.Record.Assembler

/-! ## The assembler behind some lines -/

/-- The assembler after some lines have been fed. -/
def after (a : Assembler) (lines : List (Nat × String)) : Assembler :=
  lines.foldl (fun a line => (a.feed line.1 line.2).2) a

/-- The records that feeding some lines completes. The one that is open behind
them is not among these. -/
def closed (a : Assembler) : List (Nat × String) → List Record
  | [] => []
  | line :: lines => (a.feed line.1 line.2).1.toList ++ closed (a.feed line.1 line.2).2 lines

@[simp] theorem closed_nil (a : Assembler) : a.closed [] = [] := rfl

theorem after_append (a : Assembler) (xs ys : List (Nat × String)) :
    a.after (xs ++ ys) = (a.after xs).after ys := by
  rw [after, after, after, List.foldl_append]

/-- One more line. -/
theorem after_concat (a : Assembler) (xs : List (Nat × String)) (line : Nat × String) :
    a.after (xs ++ [line]) = ((a.after xs).feed line.1 line.2).2 := by
  rw [after_append]
  rfl

theorem closed_append (a : Assembler) (xs ys : List (Nat × String)) :
    a.closed (xs ++ ys) = a.closed xs ++ (a.after xs).closed ys := by
  induction xs generalizing a with
  | nil => rfl
  | cons line xs ih =>
    rw [List.cons_append, closed, closed, ih, List.append_assoc]
    rfl

/-- One more line completes at most the record that was open in front of it. -/
theorem closed_concat (a : Assembler) (xs : List (Nat × String)) (line : Nat × String) :
    a.closed (xs ++ [line])
      = a.closed xs ++ ((a.after xs).feed line.1 line.2).1.toList := by
  rw [closed_append, closed, closed_nil, List.append_nil]

/-- What fewer lines complete, more lines complete as well. -/
theorem closed_take_isPrefix (a : Assembler) (lines : List (Nat × String)) {i j : Nat}
    (h : i ≤ j) : a.closed (lines.take i) <+: a.closed (lines.take j) := by
  obtain ⟨more, hmore⟩ := List.take_prefix_take_left h (l := lines)
  rw [← hmore, closed_append]
  exact List.prefix_append _ _

/-! ## The full parse -/

/-- Ending the input adds the open record and nothing else. -/
theorem records_eq (a : Assembler) (lines : List (Nat × String)) :
    a.records lines = a.closed lines ++ (a.after lines).flush.1.toList := by
  induction lines generalizing a with
  | nil => rfl
  | cons line lines ih =>
    show (a.feed line.1 line.2).1.toList ++ (a.feed line.1 line.2).2.records lines = _
    rw [ih, closed, List.append_assoc]
    rfl

theorem records_append (a : Assembler) (xs ys : List (Nat × String)) :
    a.records (xs ++ ys) = a.closed xs ++ (a.after xs).records ys := by
  rw [records_eq, records_eq, closed_append, after_append, List.append_assoc]

/-- **Stopping early keeps a prefix.** What some first lines complete is a prefix
of the full parse: every such record has the content, the number and the line
number that it has there. -/
theorem closed_isPrefix_records (a : Assembler) (lines : List (Nat × String)) (i : Nat) :
    a.closed (lines.take i) <+: a.records lines := by
  have hsplit := records_append a (lines.take i) (lines.drop i)
  rw [List.take_append_drop] at hsplit
  rw [hsplit]
  exact List.prefix_append _ _

end LogSearch.Record.Assembler
