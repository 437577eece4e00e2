/-
How the tokens of a query lie in its text.

`LaidOut` says of a stretch of a text what its tokens are, without a scanner: the tokens stand
one behind the other, each of them is written where it says, a bare word ends where no word
character follows, and what lies outside of them is white space. The scanner gives the only
tokens for which this holds of the whole text (`tokens_laidOut`), and it fails only where the
next thing that is no white space is a quote without a word.

Both directions follow the stretch from its front. A blank or a lexeme in front of one that is
laid out keeps it so (`LaidOut.blank_cons`, `LaidOut.cons`), which is the induction along the
scanner. Conversely the first token can be taken off (`LaidOut.of_cons`), and the scanner passes
the blanks in front of it and reads it, so the induction is on the tokens.
-/
import LogSearch.Chain
import LogSearch.Proofs.Query.Spelling
import LogSearch.Proofs.Text.Capitals

set_option autoImplicit false

namespace LogSearch.Query

/-! ## What is written for a symbol -/

/-- The operators and their names. -/
def operators : List (String × Symbol) :=
  [("AND", .and), ("OR", .or), ("NOT", .not)]

/-- What a bare word says: an operator if its capitals are the name of one, and else itself. -/
def Symbol.ofBare (word : String) : Symbol :=
  (operators.lookup (Text.upper word)).getD (.word word false)

/-- Whether the symbol is made of a bare word. -/
def Symbol.isBare : Symbol → Bool
  | .word _ isQuoted => !isQuoted
  | .opening => false
  | .closing => false
  | _ => true

/-- The number of characters that a symbol takes. -/
def Symbol.width : Symbol → Nat
  | .word text true => text.length + 2
  | .word text false => text.length
  | symbol => symbol.text.length

/-- The position behind a token. -/
def Token.stop (t : Token) : Nat :=
  t.position + t.symbol.width

/-- What is written for a symbol: a parenthesis, a text without quotes between two of them, or
a bare word. -/
inductive IsLexeme : List Char → Symbol → Prop where
  | opening : IsLexeme ['('] .opening
  | closing : IsLexeme [')'] .closing
  | quoted {text : List Char} (hquote : '"' ∉ text) (hne : text ≠ []) :
      IsLexeme ('"' :: (text ++ ['"'])) (.word (String.ofList text) true)
  | bare {c : Char} {cs : List Char} (hquote : c ≠ '"')
      (hall : ∀ d ∈ c :: cs, isWordChar d = true) :
      IsLexeme (c :: cs) (.ofBare (String.ofList (c :: cs)))

/-- The scanner compares capitals in the ASCII sense, and that is enough. -/
theorem Symbol.ofBare_ofList (word : List Char) :
    Symbol.ofBare (String.ofList word) = Symbol.ofWord word := by
  have hupper : ∀ letters : List Char, (∀ d ∈ letters, d ∈ Text.operatorLetters) →
      (Text.upper (String.ofList word) == String.ofList letters)
        = decide (word.map Char.toUpper = letters) := by
    intro letters hletters
    rw [Bool.beq_eq_decide_eq, decide_eq_decide]
    exact Text.upper_eq_ofList_iff hletters
  have hand : (Text.upper (String.ofList word) == "AND") = _ :=
    hupper ['A', 'N', 'D'] (by simp [Text.operatorLetters])
  have hor : (Text.upper (String.ofList word) == "OR") = _ :=
    hupper ['O', 'R'] (by simp [Text.operatorLetters])
  have hnot : (Text.upper (String.ofList word) == "NOT") = _ :=
    hupper ['N', 'O', 'T'] (by simp [Text.operatorLetters])
  rw [ofBare, operators, ofWord]
  simp only [List.lookup_cons, List.lookup_nil, hand, hor, hnot]
  by_cases h₁ : word.map Char.toUpper = ['A', 'N', 'D']
  · simp [h₁]
  by_cases h₂ : word.map Char.toUpper = ['O', 'R']
  · simp [h₂]
  by_cases h₃ : word.map Char.toUpper = ['N', 'O', 'T']
  · simp [h₃]
  · simp [h₁, h₂, h₃]

/-- A bare word is an operator of its own length, or a keyword of its own characters. -/
theorem Symbol.ofWord_cases (word : List Char) :
    (∃ s ∈ [Symbol.and, .or, .not], Symbol.ofWord word = s ∧ word.length = s.width)
      ∨ Symbol.ofWord word = .word (String.ofList word) false := by
  have hlength : ∀ letters : List Char, word.map Char.toUpper = letters →
      word.length = letters.length := by
    rintro _ rfl
    exact (List.length_map _).symm
  rw [ofWord]
  split
  · exact .inl ⟨.and, by simp, rfl, hlength _ ‹_›⟩
  split
  · exact .inl ⟨.or, by simp, rfl, hlength _ ‹_›⟩
  split
  · exact .inl ⟨.not, by simp, rfl, hlength _ ‹_›⟩
  · exact .inr rfl

theorem Symbol.isBare_ofWord (word : List Char) : (Symbol.ofWord word).isBare = true := by
  rcases Symbol.ofWord_cases word with ⟨s, hs, heq, -⟩ | heq
  · rw [heq]
    exact (by decide : ∀ s ∈ [Symbol.and, .or, .not], s.isBare = true) s hs
  · rw [heq]
    rfl

namespace IsLexeme

variable {word : List Char} {s : Symbol}

theorem length_eq (h : IsLexeme word s) : word.length = s.width := by
  cases h with
  | opening => rfl
  | closing => rfl
  | @quoted text hquote hne => simp [Symbol.width]
  | @bare c cs hquote hall =>
    rw [Symbol.ofBare_ofList]
    rcases Symbol.ofWord_cases (c :: cs) with ⟨s, -, heq, hlength⟩ | heq
    · rw [heq, hlength]
    · rw [heq, Symbol.width, String.length_ofList]

/-- A symbol takes at least one character. -/
theorem ne_nil (h : IsLexeme word s) : word ≠ [] := by
  cases h <;> exact List.cons_ne_nil _ _

theorem of_isBare (h : IsLexeme word s) (hbare : s.isBare = true) :
    ∀ d ∈ word, isWordChar d = true := by
  cases h with
  | opening => cases hbare
  | closing => cases hbare
  | quoted hquote hne => cases hbare
  | bare hquote hall => exact hall

/-- What is no bare word is in quotes, or a single character that cannot stand in one. -/
theorem of_not_isBare (h : IsLexeme word s) (hbare : s.isBare = false) :
    (∃ text, s = .word text true) ∨ ∃ d, word = [d] ∧ isWordChar d = false := by
  cases h with
  | opening => exact .inr ⟨_, rfl, by decide⟩
  | closing => exact .inr ⟨_, rfl, by decide⟩
  | quoted hquote hne => exact .inl ⟨_, rfl⟩
  | bare hquote hall =>
    rw [Symbol.ofBare_ofList, Symbol.isBare_ofWord] at hbare
    cases hbare

end IsLexeme

/-- **The scanner takes what is written for a symbol**, and it takes a bare word that ends where
no word character follows. -/
theorem scan_lexeme {word rest : List Char} {s : Symbol} (h : IsLexeme word s)
    (hrest : s.isBare = true → ∀ c ∈ rest.head?, isWordChar c = false) (position : Nat) :
    scan position (word ++ rest)
      = (scan (position + word.length) rest).map (⟨s, position⟩ :: ·) := by
  cases h with
  | opening => exact scan_opening position rest
  | closing => exact scan_closing position rest
  | @quoted text hquote hne =>
    rw [List.cons_append, List.append_assoc, List.singleton_append,
      scan_quoted position hquote hne]
    simp [Nat.add_assoc]
  | @bare c cs hquote hall =>
    obtain ⟨hc, hcs⟩ := List.forall_mem_cons.mp hall
    rw [Symbol.ofBare_ofList] at hrest ⊢
    obtain ⟨htake, hdrop⟩ := span_append hcs (hrest (Symbol.isBare_ofWord _))
    rw [List.cons_append, scan_word position hc hquote, htake, hdrop]

/-- What is at the front of a text where no token can start: a quote that is not closed, or one
with nothing in it. -/
inductive IsBadQuote (position : Nat) : List Char → SyntaxError → Prop where
  | unterminated {cs : List Char} (h : '"' ∉ cs) :
      IsBadQuote position ('"' :: cs) (.unterminatedQuote position)
  | empty (rest : List Char) : IsBadQuote position ('"' :: '"' :: rest) (.emptyQuote position)

theorem IsBadQuote.position_eq {position : Nat} {cs : List Char} {e : SyntaxError}
    (h : IsBadQuote position cs e) : e.position = some position := by
  cases h <;> rfl

theorem IsBadQuote.scan {position : Nat} {cs : List Char} {e : SyntaxError}
    (h : IsBadQuote position cs e) : scan position cs = .error e := by
  cases h with
  | unterminated h => exact scan_unterminated position h
  | empty rest => exact scan_emptyQuote position rest

/-- A text that does not start with white space starts with a symbol or with a bad quote. -/
theorem exists_lexeme (position : Nat) {c : Char} (cs : List Char)
    (hblank : Text.isBlank c = false) :
    (∃ word s rest, c :: cs = word ++ rest ∧ IsLexeme word s
      ∧ (s.isBare = true → ∀ d ∈ rest.head?, isWordChar d = false))
      ∨ ∃ e, IsBadQuote position (c :: cs) e := by
  -- the first character says what the symbol is; a quote has to be closed behind something
  by_cases hopening : c = '('
  · exact .inl ⟨_, _, cs, by rw [hopening]; rfl, .opening, fun h => nomatch h⟩
  by_cases hclosing : c = ')'
  · exact .inl ⟨_, _, cs, by rw [hclosing]; rfl, .closing, fun h => nomatch h⟩
  by_cases hquote : c = '"'
  · rw [hquote]
    by_cases hclosed : '"' ∈ cs
    · obtain ⟨text, rest, rfl, htext⟩ := List.eq_append_cons_of_mem hclosed
      rcases text with _ | ⟨d, text⟩
      · exact .inr ⟨_, .empty rest⟩
      · exact .inl ⟨_, _, rest, by simp, .quoted htext (List.cons_ne_nil d text),
          fun h => nomatch h⟩
    · exact .inr ⟨_, .unterminated hclosed⟩
  · have hword : isWordChar c = true := by
      simp [isWordChar, hblank, hopening, hclosing]
    refine .inl ⟨c :: cs.takeWhile isWordChar, _, cs.dropWhile isWordChar, ?_, .bare hquote ?_,
      fun _ d hd => ?_⟩
    · rw [List.cons_append, List.takeWhile_append_dropWhile]
    · exact List.forall_mem_cons.mpr ⟨hword, List.all_eq_true.mp List.all_takeWhile⟩
    · have hstop := List.head?_dropWhile_not isWordChar cs
      rw [hd] at hstop
      simpa using hstop

/-! ## Stretches of a text -/

/-- The tokens are what the text has from `start` up to `stop`. -/
structure LaidOut (cs : List Char) (start stop : Nat) (ts : List Token) : Prop where
  /-- The stretch lies in the text. -/
  bounds : start ≤ stop ∧ stop ≤ cs.length
  /-- The tokens stand one behind the other and do not overlap. -/
  ordered : ts.Pairwise fun t u => t.position < u.position ∧ t.stop ≤ u.position
  /-- They lie in the stretch. -/
  within : ∀ t ∈ ts, start ≤ t.position ∧ t.stop ≤ stop
  /-- Each of them is written there. -/
  written : ∀ t ∈ ts, IsLexeme ((cs.drop t.position).take t.symbol.width) t.symbol
  /-- Behind a bare word there is no word character. -/
  maximal : ∀ t ∈ ts, t.symbol.isBare = true → ∀ c ∈ cs[t.stop]?, isWordChar c = false
  /-- Every other character is white space. -/
  blank : ∀ i, start ≤ i → i < stop → (∀ t ∈ ts, ¬(t.position ≤ i ∧ i < t.stop)) →
    ∃ c ∈ cs[i]?, Text.isBlank c = true

namespace LaidOut

variable {cs : List Char} {start stop : Nat} {ts : List Token}

/-- Between two equal places there is nothing. -/
theorem nil (h : stop ≤ cs.length) : LaidOut cs stop stop [] where
  bounds := ⟨Nat.le_refl _, h⟩
  ordered := .nil
  within := List.forall_mem_nil _
  written := List.forall_mem_nil _
  maximal := List.forall_mem_nil _
  blank := fun _ hi hi' => absurd hi (Nat.not_le.mpr hi')

/-- White space in front of a stretch adds no token. -/
theorem blank_cons (h : LaidOut cs (start + 1) stop ts) {c : Char} (hc : cs[start]? = some c)
    (hblank : Text.isBlank c = true) : LaidOut cs start stop ts where
  bounds := ⟨Nat.le_of_succ_le h.bounds.1, h.bounds.2⟩
  ordered := h.ordered
  within := fun t ht => ⟨Nat.le_of_succ_le (h.within t ht).1, (h.within t ht).2⟩
  written := h.written
  maximal := h.maximal
  blank := fun i hi hi' houtside => by
    rcases Nat.eq_or_lt_of_le hi with rfl | hlt
    · exact ⟨c, hc, hblank⟩
    · exact h.blank i hlt hi' houtside

/-- What is written for a symbol in front of a stretch adds its token. -/
theorem cons {word rest : List Char} {s : Symbol} (h : LaidOut cs (start + word.length) stop ts)
    (hdrop : cs.drop start = word ++ rest) (hword : IsLexeme word s)
    (hrest : s.isBare = true → ∀ c ∈ rest.head?, isWordChar c = false) :
    LaidOut cs start stop (⟨s, start⟩ :: ts) := by
  have hwidth := hword.length_eq
  have hpos : 0 < word.length := List.length_pos_iff.mpr hword.ne_nil
  have hstop : Token.stop ⟨s, start⟩ = start + word.length := by rw [Token.stop, hwidth]
  constructor
  case bounds => exact ⟨Nat.le_trans (Nat.le_add_right ..) h.bounds.1, h.bounds.2⟩
  case ordered =>
    refine List.pairwise_cons.mpr ⟨fun u hu => ?_, h.ordered⟩
    have hbehind := (h.within u hu).1
    show start < u.position ∧ Token.stop ⟨s, start⟩ ≤ u.position
    omega
  case within =>
    refine List.forall_mem_cons.mpr ⟨⟨Nat.le_refl _, ?_⟩, fun u hu => ?_⟩
    · rw [hstop]
      exact h.bounds.1
    · have hbehind := h.within u hu
      omega
  case written =>
    refine List.forall_mem_cons.mpr ⟨?_, h.written⟩
    show IsLexeme ((cs.drop start).take s.width) s
    rwa [hdrop, ← hwidth, List.take_left]
  case maximal =>
    -- what stands behind the lexeme is the head of the rest
    refine List.forall_mem_cons.mpr ⟨fun hbare c hc => hrest hbare c ?_, h.maximal⟩
    rw [hstop, ← List.getElem?_drop, hdrop, List.getElem?_append_right (Nat.le_refl _),
      Nat.sub_self] at hc
    rwa [List.head?_eq_getElem?]
  case blank =>
    -- a place that is not in the new token is behind it
    intro i hi hi' houtside
    obtain ⟨hnot, hothers⟩ := List.forall_mem_cons.mp houtside
    have hbehind : ¬(start ≤ i ∧ i < Token.stop ⟨s, start⟩) := hnot
    exact h.blank i (by omega) hi' hothers

/-- In front of its first token a stretch is white space, and behind it the rest is laid out. -/
theorem of_cons {t : Token} (h : LaidOut cs start stop (t :: ts)) :
    LaidOut cs start t.position [] ∧ LaidOut cs t.stop stop ts := by
  obtain ⟨hfirst, hordered⟩ := List.pairwise_cons.mp h.ordered
  obtain ⟨⟨hstart, hstop⟩, hwithin⟩ := List.forall_mem_cons.mp h.within
  have hle : t.position ≤ t.stop := Nat.le_add_right ..
  have hbounds := h.bounds
  constructor
  · refine ⟨⟨hstart, by omega⟩, .nil, List.forall_mem_nil _, List.forall_mem_nil _,
      List.forall_mem_nil _, fun i hi hi' _ => ?_⟩
    refine h.blank i hi (by omega) (List.forall_mem_cons.mpr ⟨by omega, fun u hu => ?_⟩)
    have hbehind := hfirst u hu
    omega
  · refine ⟨⟨hstop, hbounds.2⟩, hordered, fun u hu => ⟨(hfirst u hu).2, (hwithin u hu).2⟩,
      (List.forall_mem_cons.mp h.written).2, (List.forall_mem_cons.mp h.maximal).2,
      fun i hi hi' houtside => ?_⟩
    exact h.blank i (by omega) hi' (List.forall_mem_cons.mpr ⟨by omega, houtside⟩)

/-- The scanner passes a stretch without tokens. -/
theorem scan_of_nil (h : LaidOut cs start stop []) :
    scan start (cs.drop start) = scan stop (cs.drop stop) := by
  obtain ⟨k, rfl⟩ := Nat.exists_eq_add_of_le h.bounds.1
  have hblank : ∀ i, start ≤ i → i < start + k → ∃ c ∈ cs[i]?, Text.isBlank c = true :=
    fun i hi hi' => h.blank i hi hi' (List.forall_mem_nil _)
  clear h
  induction k generalizing start with
  | zero => rfl
  | succ k ih =>
    obtain ⟨c, hc, hwhite⟩ := hblank start (Nat.le_refl _) (by omega)
    obtain ⟨hlt, rfl⟩ := List.getElem?_eq_some_iff.mp hc
    rw [List.drop_eq_getElem_cons hlt, scan_blank start hwhite,
      ih fun i hi hi' => hblank i (by omega) (by omega), Nat.add_right_comm, Nat.add_assoc]

/-- **The scanner takes the tokens of a stretch**, and goes on behind it. -/
theorem scan_eq (h : LaidOut cs start stop ts) :
    scan start (cs.drop start) = (scan stop (cs.drop stop)).map (ts ++ ·) := by
  induction ts generalizing start with
  | nil =>
    rw [h.scan_of_nil]
    cases scan stop (cs.drop stop) <;> rfl
  | cons t ts ih =>
    obtain ⟨hfront, hbehind⟩ := h.of_cons
    -- the text from the token on, cut behind its characters
    have hword := h.written t (List.mem_cons_self ..)
    have hdrop : cs.drop t.position
        = (cs.drop t.position).take t.symbol.width ++ cs.drop t.stop := by
      rw [Token.stop, ← List.drop_drop, List.take_append_drop]
    have hmaximal := h.maximal t (List.mem_cons_self ..)
    rw [← List.head?_drop] at hmaximal
    rw [hfront.scan_of_nil, hdrop, scan_lexeme hword hmaximal, hword.length_eq]
    show (scan t.stop (cs.drop t.stop)).map ([t] ++ ·) = _
    rw [ih hbehind, map_append_map]
    rfl

/-- The characters of a token in a stretch. -/
theorem getElem?_of_mem (h : LaidOut cs start stop ts) {t : Token} (ht : t ∈ ts) {i : Nat}
    (hi : t.position ≤ i) (hi' : i < t.stop) :
    ∃ c ∈ (cs.drop t.position).take t.symbol.width, cs[i]? = some c := by
  have hlength := (h.written t ht).length_eq
  have hlt : i - t.position < ((cs.drop t.position).take t.symbol.width).length := by
    rw [Token.stop] at hi'
    omega
  refine ⟨_, List.getElem_mem hlt, ?_⟩
  rw [List.getElem_take, List.getElem_drop, ← List.getElem?_eq_getElem, Nat.add_sub_cancel' hi]

/-- Of two tokens in a stretch one stands behind the other. -/
theorem apart (h : LaidOut cs start stop ts) {t u : Token} (ht : t ∈ ts) (hu : u ∈ ts) :
    t = u ∨ t.stop ≤ u.position ∨ u.stop ≤ t.position := by
  obtain ⟨before, after, rfl⟩ := List.append_of_mem ht
  obtain ⟨-, hafter, hbefore⟩ := List.pairwise_append.mp h.ordered
  rcases List.mem_append.mp hu with hu | hu
  · exact .inr (.inr (hbefore u hu t (List.mem_cons_self ..)).2)
  · rcases List.mem_cons.mp hu with rfl | hu
    · exact .inl rfl
    · exact .inr (.inl ((List.pairwise_cons.mp hafter).1 u hu).2)

/-- In front of a bare word there is no word character either, unless a word in quotes ends
there. -/
theorem front_of_isBare (h : LaidOut cs start stop ts) {t : Token} (ht : t ∈ ts)
    (hbare : t.symbol.isBare = true) {i : Nat} (hi : start ≤ i) (hfront : t.position = i + 1)
    {c : Char} (hc : cs[i]? = some c) (hword : isWordChar c = true) :
    ∃ u ∈ ts, u.stop = t.position ∧ ∃ text, u.symbol = .word text true := by
  have hlexeme := h.written t ht
  have hwidth : 0 < t.symbol.width := by
    rw [← hlexeme.length_eq]
    exact List.length_pos_iff.mpr hlexeme.ne_nil
  have hstop : t.position < t.stop := Nat.lt_add_of_pos_right hwidth
  obtain ⟨d, hd, hfirst⟩ := h.getElem?_of_mem ht (Nat.le_refl _) hstop
  have hlast := (h.within t ht).2
  by_cases hspan : ∃ u ∈ ts, u.position ≤ i ∧ i < u.stop
  · obtain ⟨u, hu, hle, hlt⟩ := hspan
    have hbehind : u.stop = t.position := by
      rcases h.apart ht hu with rfl | hapart | hapart <;> omega
    refine ⟨u, hu, hbehind, ?_⟩
    -- a bare word would go on with `t`, and at the place of a parenthesis stands `c`
    cases hkind : u.symbol.isBare with
    | true =>
      have hend := h.maximal u hu hkind d (by rw [hbehind]; exact hfirst)
      rw [hlexeme.of_isBare hbare d hd] at hend
      cases hend
    | false =>
      rcases (h.written u hu).of_not_isBare hkind with htext | ⟨p, hp, hother⟩
      · exact htext
      · obtain ⟨c', hc', hget⟩ := h.getElem?_of_mem hu hle hlt
        rw [hp, List.mem_singleton] at hc'
        rw [hc, Option.some.injEq] at hget
        rw [hget, hc', hother] at hword
        cases hword
  · obtain ⟨c', hc', hblank⟩ := h.blank i hi (by omega) fun u hu hi => hspan ⟨u, hu, hi⟩
    obtain rfl : c = c' := Option.some.inj (hc.symm.trans hc')
    simp [isWordChar, hblank] at hword

end LaidOut

/-! ## The scanner -/

/-- What the answer of the scanner says of the text from `start` on. -/
def Explains (cs : List Char) (start : Nat) : Except SyntaxError (List Token) → Prop
  | .ok ts => LaidOut cs start cs.length ts
  | .error e => ∃ stop ts, LaidOut cs start stop ts ∧ IsBadQuote stop (cs.drop stop) e

section Explains

variable {cs : List Char} {start : Nat} {answer : Except SyntaxError (List Token)}

theorem Explains.blank_cons (h : Explains cs (start + 1) answer) {c : Char}
    (hc : cs[start]? = some c) (hblank : Text.isBlank c = true) : Explains cs start answer := by
  cases answer with
  | ok ts => exact LaidOut.blank_cons h hc hblank
  | error e =>
    obtain ⟨stop, ts, hlaid, hbad⟩ := h
    exact ⟨stop, ts, hlaid.blank_cons hc hblank, hbad⟩

theorem Explains.cons {word rest : List Char} {s : Symbol}
    (h : Explains cs (start + word.length) answer) (hdrop : cs.drop start = word ++ rest)
    (hword : IsLexeme word s)
    (hrest : s.isBare = true → ∀ c ∈ rest.head?, isWordChar c = false) :
    Explains cs start (answer.map (⟨s, start⟩ :: ·)) := by
  cases answer with
  | ok ts => exact LaidOut.cons h hdrop hword hrest
  | error e =>
    obtain ⟨stop, ts, hlaid, hbad⟩ := h
    exact ⟨stop, _, hlaid.cons hdrop hword hrest, hbad⟩

/-- **The answer of the scanner says how the text lies.** By what is left of the text: each step
passes a blank or takes a symbol, or it fails at a bad quote. -/
theorem explains_scan (cs : List Char) (start : Nat) (hstart : start ≤ cs.length) :
    Explains cs start (scan start (cs.drop start)) := by
  rcases Nat.eq_or_lt_of_le hstart with rfl | hlt
  · rw [List.drop_length, scan_nil]
    exact LaidOut.nil (Nat.le_refl _)
  · have hdrop := List.drop_eq_getElem_cons hlt
    by_cases hblank : Text.isBlank cs[start] = true
    · rw [hdrop, scan_blank start hblank]
      exact (explains_scan cs (start + 1) hlt).blank_cons (List.getElem?_eq_getElem hlt) hblank
    · rcases exists_lexeme start (cs.drop (start + 1)) (Bool.eq_false_iff.mpr hblank) with
        ⟨word, s, rest, hsplit, hword, hrest⟩ | ⟨e, hbad⟩
      · rw [← hdrop] at hsplit
        have hpos : 0 < word.length := List.length_pos_iff.mpr hword.ne_nil
        have hlength := congrArg List.length hsplit
        rw [List.length_drop, List.length_append] at hlength
        have hbehind : cs.drop (start + word.length) = rest := by
          rw [← List.drop_drop, hsplit, List.drop_left]
        have hexplains := explains_scan cs (start + word.length) (by omega)
        rw [hbehind] at hexplains
        rw [hsplit, scan_lexeme hword hrest]
        exact hexplains.cons hsplit hword hrest
      · rw [← hdrop] at hbad
        rw [hbad.scan]
        exact ⟨start, [], LaidOut.nil hstart, hbad⟩
termination_by cs.length - start

end Explains

/-- **The tokens of a query are the ones that are laid out in it.** They stand one behind the
other, each is written where it says, a bare word is as long as it can be, and all else is white
space. A bare word starts behind a character that cannot stand in it, or right behind a word in
quotes. A query has no tokens exactly if it is laid out up to a quote that is not closed or has
nothing in it, and the error is at this quote. -/
theorem tokens_laidOut (query : String) :
    (∀ ts, tokens query = .ok ts ↔ LaidOut query.toList 0 query.toList.length ts)
    ∧ (∀ ts, tokens query = .ok ts → ∀ t ∈ ts, t.symbol.isBare = true →
      ∀ i c, t.position = i + 1 → query.toList[i]? = some c → isWordChar c = true →
        ∃ u ∈ ts, u.stop = t.position ∧ ∃ text, u.symbol = .word text true)
    ∧ ∀ e, tokens query = .error e
      ↔ ∃ stop ts, LaidOut query.toList 0 stop ts ∧ IsBadQuote stop (query.toList.drop stop) e
        ∧ e.position = some stop := by
  -- the scan explains the whole query, and the layout gives the scan back
  have hexplains := explains_scan query.toList 0 (Nat.zero_le _)
  rw [List.drop_zero] at hexplains
  have hok : ∀ ts, tokens query = .ok ts → LaidOut query.toList 0 query.toList.length ts := by
    intro ts hts
    rw [← tokens, hts] at hexplains
    exact hexplains
  refine ⟨fun ts => ⟨hok ts, fun h => ?_⟩, fun ts hts t ht hbare i c hi hc hword => ?_,
    fun e => ⟨fun he => ?_, ?_⟩⟩
  · have hscan := h.scan_eq
    rw [List.drop_length, List.drop_zero, scan_nil] at hscan
    rw [tokens, hscan]
    exact congrArg Except.ok (List.append_nil ts)
  · exact (hok ts hts).front_of_isBare ht hbare (Nat.zero_le i) hi hc hword
  · rw [← tokens, he] at hexplains
    obtain ⟨stop, ts, hlaid, hbad⟩ := hexplains
    exact ⟨stop, ts, hlaid, hbad, hbad.position_eq⟩
  · rintro ⟨stop, ts, hlaid, hbad, -⟩
    have hscan := hlaid.scan_eq
    rw [hbad.scan, List.drop_zero] at hscan
    exact hscan

end LogSearch.Query
