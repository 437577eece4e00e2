/-
What characters make up which symbols.

The scanner looks at one character to decide what comes next, and a bare word ends at
the next blank or parenthesis. So a piece of text can be read apart from what follows,
if it ends where a symbol does: after a quote, a parenthesis or a blank. `Spells` says
this of a piece, at every position and in front of every rest, and pieces can then be
put together by `Spells.append`.
-/
import LogSearch.Query.Scan

set_option autoImplicit false

namespace LogSearch.Query

/-! ## One step of the scanner -/

variable (position : Nat)

theorem scan_nil : scan position [] = .ok [] := by
  rw [scan.eq_def]

theorem scan_blank {c : Char} (h : Text.isBlank c = true) (cs : List Char) :
    scan position (c :: cs) = scan (position + 1) cs := by
  rw [scan.eq_def]
  dsimp only
  rw [if_pos h]

/-- Blanks make up no symbols. -/
theorem scan_of_all_blank {cs : List Char} (h : ∀ c ∈ cs, Text.isBlank c = true) :
    scan position cs = .ok [] := by
  induction cs generalizing position with
  | nil => exact scan_nil position
  | cons c cs ih =>
    obtain ⟨hc, hcs⟩ := List.forall_mem_cons.mp h
    rw [scan_blank position hc, ih _ hcs]

theorem scan_opening (cs : List Char) :
    scan position ('(' :: cs) = (scan (position + 1) cs).map (⟨.opening, position⟩ :: ·) := by
  rw [scan.eq_def]
  dsimp only
  rw [if_neg (by decide), if_pos rfl]
  rfl

theorem scan_closing (cs : List Char) :
    scan position (')' :: cs) = (scan (position + 1) cs).map (⟨.closing, position⟩ :: ·) := by
  rw [scan.eq_def]
  dsimp only
  rw [if_neg (by decide), if_neg (by decide), if_pos rfl]
  rfl

/-- A quote that is closed makes up a word, unless nothing is in it. -/
theorem scan_quoted {text : List Char} (h : '"' ∉ text) (hne : text ≠ []) (rest : List Char) :
    scan position ('"' :: (text ++ '"' :: rest))
      = (scan (position + text.length + 2) rest).map
        (⟨.word (String.ofList text) true, position⟩ :: ·) := by
  rw [scan.eq_def]
  dsimp only
  rw [if_neg (by decide), if_neg (by decide), if_neg (by decide), if_pos rfl]
  split
  · rename_i hcut
    rw [Text.cutAt_append h] at hcut
    cases hcut
  · rename_i hcut
    rw [Text.cutAt_append h] at hcut ⊢
    cases hcut
    have hempty : text.isEmpty = false := by
      rw [List.isEmpty_eq_false_iff]
      exact hne
    dsimp only
    rw [hempty]
    rfl

theorem scan_emptyQuote (rest : List Char) :
    scan position ('"' :: '"' :: rest) = .error (.emptyQuote position) := by
  rw [scan.eq_def]
  dsimp only
  rw [if_neg (by decide), if_neg (by decide), if_neg (by decide), if_pos rfl]
  split
  · rename_i hcut
    cases hcut
  · rfl

theorem scan_unterminated {text : List Char} (h : '"' ∉ text) :
    scan position ('"' :: text) = .error (.unterminatedQuote position) := by
  rw [scan.eq_def]
  dsimp only
  rw [if_neg (by decide), if_neg (by decide), if_neg (by decide), if_pos rfl]
  split
  · rfl
  · rename_i hcut
    rw [Text.cutAt_of_not_mem h] at hcut
    cases hcut

/-- At a quote the scanner fails, or takes what stands up to the next one for a word. -/
theorem scan_quote_cases (cs : List Char) :
    (∃ error, scan position ('"' :: cs) = .error error)
      ∨ ∃ text rest, cs = text ++ '"' :: rest ∧ '"' ∉ text ∧ text ≠ []
        ∧ scan position ('"' :: cs) = (scan (position + text.length + 2) rest).map
          (⟨.word (String.ofList text) true, position⟩ :: ·) := by
  by_cases hclosed : '"' ∈ cs
  · obtain ⟨text, rest, rfl, htext⟩ := List.eq_append_cons_of_mem hclosed
    by_cases hempty : text = []
    · rw [hempty]
      exact .inl ⟨_, scan_emptyQuote position rest⟩
    · exact .inr ⟨text, rest, rfl, htext, hempty, scan_quoted position htext hempty rest⟩
  · exact .inl ⟨_, scan_unterminated position hclosed⟩

/-- A bare word goes as far as word characters do. -/
theorem scan_word {c : Char} (h : isWordChar c = true) (hquote : c ≠ '"') (cs : List Char) :
    scan position (c :: cs)
      = (scan (position + (c :: cs.takeWhile isWordChar).length) (cs.dropWhile isWordChar)).map
        (⟨.ofWord (c :: cs.takeWhile isWordChar), position⟩ :: ·) := by
  obtain ⟨⟨hblank, hopening⟩, hclosing⟩ : (Text.isBlank c = false ∧ c ≠ '(') ∧ c ≠ ')' := by
    simpa [isWordChar] using h
  rw [scan.eq_def]
  dsimp only
  rw [if_neg (by rw [hblank]; exact Bool.false_ne_true), if_neg hopening, if_neg hclosing,
    if_neg hquote]
  rfl

/-- A run of characters ends where one comes that does not belong to it. -/
theorem span_append {p : Char → Bool} {run rest : List Char} (hrun : ∀ c ∈ run, p c = true)
    (hrest : ∀ c ∈ rest.head?, p c = false) :
    (run ++ rest).takeWhile p = run ∧ (run ++ rest).dropWhile p = rest := by
  rw [List.takeWhile_append_of_pos hrun, List.dropWhile_append_of_pos hrun]
  cases rest with
  | nil => exact ⟨List.append_nil run, rfl⟩
  | cons c rest =>
    have hc : ¬p c = true := Bool.eq_false_iff.mp (hrest c rfl)
    rw [List.takeWhile_cons_of_neg hc, List.dropWhile_cons_of_neg hc]
    exact ⟨List.append_nil run, rfl⟩

/-! ## Pieces of a text -/

/-- Wherever the characters stand, they make up the symbols, and what follows is read for
itself. -/
def Spells (cs : List Char) (ss : List Symbol) : Prop :=
  ∀ (position : Nat) (rest : List Char), ∃ ts : List Token, ts.map Token.symbol = ss
    ∧ scan position (cs ++ rest) = (scan (position + cs.length) rest).map (ts ++ ·)

/-- Putting tokens in front twice is putting them in front at once. -/
theorem map_append_map {ε α : Type} (xs ys : List α) (result : Except ε (List α)) :
    (result.map (ys ++ ·)).map (xs ++ ·) = result.map (xs ++ ys ++ ·) := by
  cases result with
  | error e => rfl
  | ok zs => exact congrArg Except.ok (List.append_assoc xs ys zs).symm

namespace Spells

variable {as bs : List Char} {ss ts : List Symbol}

theorem nil : Spells [] [] := by
  intro position rest
  refine ⟨[], rfl, ?_⟩
  rw [List.nil_append, List.length_nil, Nat.add_zero]
  cases scan position rest <;> rfl

theorem append (h : Spells as ss) (h' : Spells bs ts) : Spells (as ++ bs) (ss ++ ts) := by
  intro position rest
  -- the first piece is read in front of the second one and the rest
  obtain ⟨us, hus, hscan⟩ := h position (bs ++ rest)
  obtain ⟨vs, hvs, hscan'⟩ := h' (position + as.length) rest
  refine ⟨us ++ vs, by rw [List.map_append, hus, hvs], ?_⟩
  rw [List.append_assoc, hscan, hscan', map_append_map, List.length_append, Nat.add_assoc]

theorem blank {c : Char} (h : Text.isBlank c = true) : Spells [c] [] := by
  intro position rest
  refine ⟨[], rfl, ?_⟩
  rw [List.singleton_append, scan_blank position h]
  cases scan (position + 1) rest <;> rfl

theorem opening : Spells ['('] [.opening] :=
  fun position rest => ⟨[⟨.opening, position⟩], rfl, scan_opening position rest⟩

theorem closing : Spells [')'] [.closing] :=
  fun position rest => ⟨[⟨.closing, position⟩], rfl, scan_closing position rest⟩

theorem quoted {text : List Char} (h : '"' ∉ text) (hne : text ≠ []) :
    Spells ('"' :: (text ++ ['"'])) [.word (String.ofList text) true] := by
  intro position rest
  refine ⟨[⟨.word (String.ofList text) true, position⟩], rfl, ?_⟩
  rw [List.cons_append, List.append_assoc, List.singleton_append, scan_quoted position h hne,
    List.length_cons, List.length_append, List.length_singleton]
  rfl

/-- A bare word with a blank behind it. -/
theorem word {c blank : Char} {cs : List Char} (hc : isWordChar c = true) (hquote : c ≠ '"')
    (hall : cs.all isWordChar = true) (hblank : Text.isBlank blank = true) :
    Spells (c :: (cs ++ [blank])) [.ofWord (c :: cs)] := by
  intro position rest
  have hcs := List.all_eq_true.mp hall
  -- the blank ends the word, so what is behind it does not matter
  have hend : ∀ c ∈ (blank :: rest).head?, isWordChar c = false := by
    simp [isWordChar, hblank]
  obtain ⟨htake, hdrop⟩ := span_append hcs hend
  refine ⟨[⟨.ofWord (c :: cs), position⟩], rfl, ?_⟩
  rw [List.cons_append, List.append_assoc, List.singleton_append, scan_word position hc hquote,
    htake, hdrop, scan_blank _ hblank, List.length_cons, List.length_cons, List.length_append,
    List.length_singleton]
  rfl

/-- A text that spells symbols has tokens with these symbols. -/
theorem tokens {text : String} (h : Spells text.toList ss) :
    ∃ us, tokens text = .ok us ∧ us.map Token.symbol = ss := by
  obtain ⟨us, hus, hscan⟩ := h 0 []
  rw [List.append_nil, scan_nil] at hscan
  refine ⟨us ++ [], hscan, ?_⟩
  rw [List.append_nil, hus]

end Spells

/-! ## What is written -/

/-- A keyword in quotes, if it holds none. -/
theorem spells_quoted {text : String} (hne : text ≠ "") (hquote : '"' ∉ text.toList) :
    Spells ("\"" ++ text ++ "\"").toList [.word text true] := by
  have hspells := Spells.quoted hquote (mt String.toList_eq_nil_iff.mp hne)
  rw [String.ofList_toList] at hspells
  rw [String.toList_append, String.toList_append]
  exact hspells

theorem spells_and : Spells " AND ".toList [.and] := by
  have hword : Spells ('A' :: (['N', 'D'] ++ [' '])) [.and] :=
    Spells.word (by decide) (by decide) (by decide) (by decide)
  exact (Spells.blank (by decide)).append hword

theorem spells_or : Spells " OR ".toList [.or] := by
  have hword : Spells ('O' :: (['R'] ++ [' '])) [.or] :=
    Spells.word (by decide) (by decide) (by decide) (by decide)
  exact (Spells.blank (by decide)).append hword

theorem spells_not : Spells "NOT ".toList [.not] := by
  have hword : Spells ('N' :: (['O', 'T'] ++ [' '])) [.not] :=
    Spells.word (by decide) (by decide) (by decide) (by decide)
  exact hword

end LogSearch.Query
