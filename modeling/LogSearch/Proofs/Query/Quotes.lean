/-
Keywords that hold a quote, and what is read back of them.

There are no escapes in a query, so a written keyword ends at its first quote. A query
can still ask for a quote: inside a bare word it is a character like any other, and in a
list of plain keywords everything is. Written out in quotes such a keyword breaks. What
stands in front of it is read as it was meant (`Breaks`), and then a shorter word is
read, or nothing at all. So the keywords that are read back are others
(`words_ne_of_breaks`), even where the rest happens to make up a query.

Behind a keyword of an expression nothing can save the reading. A bare word has neither
blanks nor parentheses in it, so what is left of it is a word again
(`startsWithWord_of_scan`), and no derivation has two words side by side
(`isChain_symbols`). With plain keywords, the rest of one may hold an operator.

The last section puts this together for compiled queries: quotes are all that can go
wrong.
-/
import LogSearch.Proofs.Query.Layout
import LogSearch.Proofs.Query.RoundTrip
import LogSearch.Query.Keywords
import Mathlib.Data.List.Chain

set_option autoImplicit false

namespace LogSearch.Query

/-! ## Words of symbols, and of what they say -/

/-- The keyword that a symbol is. -/
def Symbol.word? : Symbol → Option String
  | .word text _ => some text
  | _ => none

/-- The keywords among some symbols. -/
def wordsIn (ss : List Symbol) : List String :=
  ss.filterMap Symbol.word?

theorem wordsIn_append (ss ts : List Symbol) : wordsIn (ss ++ ts) = wordsIn ss ++ wordsIn ts :=
  List.filterMap_append

namespace Expr

variable {operator : List Expr → Expr} {es : List Expr}

theorem words_join (h : operator = .all ∨ operator = .any) (es : List Expr) :
    (join operator es).words = es.flatMap words := by
  rcases es with _ | ⟨e, _ | ⟨f, es⟩⟩
  · rcases h with rfl | rfl <;> rfl
  · exact (List.flatMap_singleton ..).symm
  · rcases h with rfl | rfl
    · exact wordsOfEach_eq_flatMap _
    · exact wordsOfEach_eq_flatMap _

theorem words_map_keyword (ks : List String) : (ks.map keyword).flatMap words = ks := by
  rw [List.flatMap_map]
  exact List.flatMap_singleton' ks

theorem grouped_join (h : operator = .all ∨ operator = .any) (hne : es ≠ [])
    (hes : ∀ e ∈ es, e.Grouped) : (join operator es).Grouped := by
  rcases es with _ | ⟨e, _ | ⟨f, es⟩⟩
  · exact absurd rfl hne
  · exact List.forall_mem_singleton.mp hes
  · rcases h with rfl | rfl
    · exact .all (by simp) hes
    · exact .any (by simp) hes

end Expr

/-- The expressions that a phrase says. -/
def Phrase.exprs : (p : Phrase) → p.Value → List Expr
  | .moreTerms, es => es
  | .moreFactors, es => es
  | .expression, e => [e]
  | .term, e => [e]
  | .factor, e => [e]

namespace Derivation

variable {p : Phrase}

/-- The keywords of what is derived are those that were written. -/
theorem words_value (d : Derivation p) :
    (p.exprs d.value).flatMap Expr.words = wordsIn d.symbols := by
  induction d with
  | expression first others ihfirst ihothers =>
    rw [symbols, wordsIn_append, ← ihfirst, ← ihothers]
    simp only [Phrase.exprs, value, ← join_cons, Expr.words_join (.inr rfl), List.flatMap_cons,
      List.flatMap_nil, List.append_nil]
  | noTerm => rfl
  | orTerm next others ihnext ihothers =>
    show _ = wordsIn (next.symbols ++ others.symbols)
    rw [wordsIn_append, ← ihnext, ← ihothers]
    simp only [Phrase.exprs, value, List.flatMap_cons, List.flatMap_nil, List.append_nil]
  | term first others ihfirst ihothers =>
    rw [symbols, wordsIn_append, ← ihfirst, ← ihothers]
    simp only [Phrase.exprs, value, ← join_cons, Expr.words_join (.inl rfl), List.flatMap_cons,
      List.flatMap_nil, List.append_nil]
  | noFactor => rfl
  | andFactor next others ihnext ihothers =>
    show _ = wordsIn (next.symbols ++ others.symbols)
    rw [wordsIn_append, ← ihnext, ← ihothers]
    simp only [Phrase.exprs, value, List.flatMap_cons, List.flatMap_nil, List.append_nil]
  | not operand ih => exact ih
  | group inner ih =>
    show _ = wordsIn (inner.symbols ++ [.closing])
    rw [wordsIn_append, ← ih]
    exact (List.append_nil _).symm
  | keyword text isQuoted => rfl

theorem words_value_expression (d : Derivation .expression) :
    Expr.words d.value = wordsIn d.symbols := by
  rw [← d.words_value]
  exact (List.flatMap_singleton ..).symm

/-- What is derived has no group with fewer than two operands. -/
theorem grouped_value (d : Derivation p) : ∀ e ∈ p.exprs d.value, e.Grouped := by
  induction d with
  | expression first others ihfirst ihothers =>
    rw [Phrase.exprs, value, ← join_cons]
    refine List.forall_mem_singleton.mpr (Expr.grouped_join (.inr rfl) (List.cons_ne_nil _ _) ?_)
    exact List.forall_mem_cons.mpr ⟨List.forall_mem_singleton.mp ihfirst, ihothers⟩
  | noTerm => exact List.forall_mem_nil _
  | orTerm next others ihnext ihothers =>
    exact List.forall_mem_cons.mpr ⟨List.forall_mem_singleton.mp ihnext, ihothers⟩
  | term first others ihfirst ihothers =>
    rw [Phrase.exprs, value, ← join_cons]
    refine List.forall_mem_singleton.mpr (Expr.grouped_join (.inl rfl) (List.cons_ne_nil _ _) ?_)
    exact List.forall_mem_cons.mpr ⟨List.forall_mem_singleton.mp ihfirst, ihothers⟩
  | noFactor => exact List.forall_mem_nil _
  | andFactor next others ihnext ihothers =>
    exact List.forall_mem_cons.mpr ⟨List.forall_mem_singleton.mp ihnext, ihothers⟩
  | not operand ih => exact List.forall_mem_singleton.mpr (.not (List.forall_mem_singleton.mp ih))
  | group inner ih => exact ih
  | keyword text isQuoted => exact List.forall_mem_singleton.mpr (.keyword text)

/-! ## No two words side by side -/

/-- One of two symbols is no word. -/
def NotBothWords (s t : Symbol) : Prop :=
  s.word? = none ∨ t.word? = none

theorem head?_moreTerms (d : Derivation .moreTerms) : ∀ s ∈ d.symbols.head?, s.word? = none := by
  cases d with
  | noTerm => exact nofun
  | orTerm next others =>
    intro s hs
    obtain rfl : Symbol.or = s := Option.some.inj hs
    rfl

theorem head?_moreFactors (d : Derivation .moreFactors) :
    ∀ s ∈ d.symbols.head?, s.word? = none := by
  cases d with
  | noFactor => exact nofun
  | andFactor next others =>
    intro s hs
    obtain rfl : Symbol.and = s := Option.some.inj hs
    rfl

/-- A word is followed by an operator or a closing parenthesis. -/
theorem isChain_symbols (d : Derivation p) : d.symbols.IsChain NotBothWords := by
  induction d with
  | expression first others ihfirst ihothers =>
    rw [symbols, List.isChain_append]
    exact ⟨ihfirst, ihothers, fun _ _ t ht => .inr (others.head?_moreTerms t ht)⟩
  | noTerm => exact List.isChain_nil
  | orTerm next others ihnext ihothers =>
    rw [symbols, List.isChain_cons, List.isChain_append]
    exact ⟨fun _ _ => .inl rfl, ihnext, ihothers,
      fun _ _ t ht => .inr (others.head?_moreTerms t ht)⟩
  | term first others ihfirst ihothers =>
    rw [symbols, List.isChain_append]
    exact ⟨ihfirst, ihothers, fun _ _ t ht => .inr (others.head?_moreFactors t ht)⟩
  | noFactor => exact List.isChain_nil
  | andFactor next others ihnext ihothers =>
    rw [symbols, List.isChain_cons, List.isChain_append]
    exact ⟨fun _ _ => .inl rfl, ihnext, ihothers,
      fun _ _ t ht => .inr (others.head?_moreFactors t ht)⟩
  | not operand ih =>
    rw [symbols, List.isChain_cons]
    exact ⟨fun _ _ => .inl rfl, ih⟩
  | group inner ih =>
    rw [symbols, List.isChain_cons, List.isChain_append]
    refine ⟨fun _ _ => .inl rfl, ih, List.isChain_singleton _, fun _ _ t ht => .inr ?_⟩
    obtain rfl : Symbol.closing = t := Option.some.inj ht
    rfl
  | keyword text isQuoted => exact List.isChain_singleton _

theorem symbols_ne_of_words (d : Derivation p) (ss ts : List Symbol) (text text' : String)
    (isQuoted isQuoted' : Bool) :
    d.symbols ≠ ss ++ .word text isQuoted :: .word text' isQuoted' :: ts := by
  intro h
  have hchain := d.isChain_symbols
  rw [h, List.isChain_append_cons_cons] at hchain
  rcases hchain.2.1 with hnone | hnone <;> cases hnone

end Derivation

/-! ## The words of a text -/

/-- No character of the keyword ends a bare word. -/
def IsBare (text : String) : Prop :=
  text.toList.all isWordChar = true

/-- A bare word is an operator, or a keyword of its own characters. -/
theorem Symbol.word?_ofWord {word : List Char} {text : String}
    (h : (Symbol.ofWord word).word? = some text) : text = String.ofList word := by
  rcases Symbol.ofWord_cases word with ⟨s, hs, heq, -⟩ | heq
  · rw [heq, (by decide : ∀ s ∈ [Symbol.and, .or, .not], s.word? = none) s hs] at h
    cases h
  · rw [heq] at h
    exact (Option.some.inj h).symm

/-- The symbols that the scanner makes: parentheses, words in quotes and bare words. -/
inductive Symbol.IsScanned : Symbol → Prop
  | opening : IsScanned .opening
  | closing : IsScanned .closing
  | quoted {text : List Char} (hquote : '"' ∉ text) (hne : text ≠ []) :
      IsScanned (.word (String.ofList text) true)
  | bare {c : Char} {cs : List Char} (hall : (c :: cs).all isWordChar = true) :
      IsScanned (.ofWord (c :: cs))

theorem IsLexeme.isScanned {word : List Char} {s : Symbol} (h : IsLexeme word s) :
    s.IsScanned := by
  cases h with
  | opening => exact .opening
  | closing => exact .closing
  | quoted hquote hne => exact .quoted hquote hne
  | bare hquote hall =>
    rw [Symbol.ofBare_ofList]
    exact .bare (List.all_eq_true.mpr hall)

/-- One step of the scanner, where it succeeds: it passes a blank, or takes one symbol. -/
theorem scan_cons_cases {position : Nat} {c : Char} {cs : List Char} {ts : List Token}
    (h : scan position (c :: cs) = .ok ts) :
    ∃ next rest, rest.length ≤ cs.length ∧ (scan next rest = .ok ts
      ∨ ∃ symbol us, symbol.IsScanned ∧ scan next rest = .ok us
        ∧ ts = ⟨symbol, position⟩ :: us) := by
  by_cases hblank : Text.isBlank c = true
  · rw [scan_blank position hblank] at h
    exact ⟨_, cs, Nat.le_refl _, .inl h⟩
  · rcases exists_lexeme position cs (Bool.eq_false_iff.mpr hblank) with
      ⟨word, s, rest, hsplit, hword, hrest⟩ | ⟨e, hbad⟩
    · rw [hsplit, scan_lexeme hword hrest] at h
      obtain ⟨us, hus, rfl⟩ := exists_of_map_eq_ok h
      refine ⟨_, rest, ?_, .inr ⟨s, us, hword.isScanned, hus, rfl⟩⟩
      have hlength := congrArg List.length hsplit
      have hpos := List.length_pos_iff.mpr hword.ne_nil
      rw [List.length_cons, List.length_append] at hlength
      omega
    · rw [hbad.scan] at h
      cases h

/-- All that is read off a text has been made by the scanner. -/
theorem isScanned_of_scan : ∀ (cs : List Char) {position : Nat} {ts : List Token},
    scan position cs = .ok ts → ∀ token ∈ ts, token.symbol.IsScanned
  | [], position, ts, h => by
    rw [scan_nil] at h
    cases h
    exact List.forall_mem_nil _
  | c :: cs, position, ts, h => by
    obtain ⟨next, rest, hlength, hrest | ⟨symbol, us, hsymbol, hus, rfl⟩⟩ := scan_cons_cases h
    · exact isScanned_of_scan rest hrest
    · exact List.forall_mem_cons.mpr ⟨hsymbol, isScanned_of_scan rest hus⟩
termination_by cs => cs.length
decreasing_by all_goals exact Nat.lt_succ_of_le hlength

/-- A keyword that the scanner makes is not empty, and only a bare word can hold a quote. -/
theorem Symbol.IsScanned.of_word? {s : Symbol} {text : String} (h : s.IsScanned)
    (hword : s.word? = some text) : text ≠ "" ∧ ('"' ∈ text.toList → IsBare text) := by
  cases h with
  | opening => cases hword
  | closing => cases hword
  | @quoted inner hquote hne =>
    obtain rfl : String.ofList inner = text := Option.some.inj hword
    rw [IsBare, String.toList_ofList]
    exact ⟨mt String.ofList_eq_empty_iff.mp hne, fun hmem => absurd hmem hquote⟩
  | @bare c cs hall =>
    obtain rfl := Symbol.word?_ofWord hword
    rw [IsBare, String.toList_ofList]
    exact ⟨mt String.ofList_eq_empty_iff.mp (List.cons_ne_nil c cs), fun _ => hall⟩

theorem word_of_scan {cs : List Char} {position : Nat} {ts : List Token}
    (h : scan position cs = .ok ts) {text : String} (htext : text ∈ wordsIn (ts.map Token.symbol)) :
    text ≠ "" ∧ ('"' ∈ text.toList → IsBare text) := by
  obtain ⟨s, hs, hword⟩ := List.mem_filterMap.mp htext
  obtain ⟨token, htoken, rfl⟩ := List.mem_map.mp hs
  exact (isScanned_of_scan cs h token htoken).of_word? hword

/-- A bare word with a quote in it is no operator. -/
theorem Symbol.ofWord_of_quote {word : List Char} (h : '"' ∈ word) :
    Symbol.ofWord word = .word (String.ofList word) false := by
  have hcapitals : '"' ∈ word.map Char.toUpper :=
    List.mem_map.mpr ⟨'"', h, by decide⟩
  rw [Symbol.ofWord, if_neg, if_neg, if_neg]
  all_goals
    intro heq
    rw [heq] at hcapitals
    revert hcapitals
    decide

/-- The tokens start with a keyword. -/
def StartsWithWord (ts : List Token) : Prop :=
  ∃ text isQuoted us, ts.map Token.symbol = .word text isQuoted :: us

theorem startsWithWord_of_quote {cs : List Char} {position : Nat} {ts : List Token}
    (h : scan position ('"' :: cs) = .ok ts) : StartsWithWord ts := by
  rcases scan_quote_cases position cs with ⟨error, herror⟩ | ⟨text, rest, -, -, -, hscan⟩
  · rw [herror] at h
    cases h
  · rw [hscan] at h
    obtain ⟨us, -, rfl⟩ := exists_of_map_eq_ok h
    exact ⟨_, _, _, rfl⟩

/-- Where a quote comes before the next blank or parenthesis, the scanner finds a keyword, if
anything. -/
theorem startsWithWord_of_scan {back after : List Char} {position : Nat} {ts : List Token}
    (hback : ∀ c ∈ back, isWordChar c = true)
    (h : scan position (back ++ '"' :: after) = .ok ts) : StartsWithWord ts := by
  cases back with
  | nil => exact startsWithWord_of_quote h
  | cons c cs =>
    obtain ⟨hc, hcs⟩ := List.forall_mem_cons.mp hback
    by_cases hquote : c = '"'
    · rw [hquote] at h
      exact startsWithWord_of_quote h
    · rw [List.cons_append, scan_word position hc hquote] at h
      obtain ⟨us, -, rfl⟩ := exists_of_map_eq_ok h
      have hmem : '"' ∈ c :: (cs ++ '"' :: after).takeWhile isWordChar := by
        rw [List.takeWhile_append_of_pos hcs, List.takeWhile_cons_of_pos (by decide)]
        exact List.mem_cons_of_mem _ (List.mem_append_right _ (List.mem_cons_self ..))
      exact ⟨_, _, _, by rw [List.map_cons, Symbol.ofWord_of_quote hmem]⟩

/-! ## Where the written form breaks -/

/-- The keywords `words` are written in a text, but one of them holds a quote; what stands in
front of it is read as it was meant. -/
def Breaks (text : String) (words : List String) : Prop :=
  ∃ before ss word after more, text.toList = before ++ '"' :: (word.toList ++ '"' :: after)
    ∧ Spells before ss ∧ words = wordsIn ss ++ word :: more ∧ '"' ∈ word.toList

/-- The keywords `words` are written in a text, and either none of them holds a quote and the
text is read as it was meant, or it breaks. -/
def SpellsOrBreaks (text : String) (words : List String) : Prop :=
  ((∀ w ∈ words, '"' ∉ w.toList) ∧ ∃ ss, Spells text.toList ss ∧ wordsIn ss = words)
    ∨ Breaks text words

variable {s t : String} {ws vs : List String} {ss : List Symbol}

theorem Breaks.append_right (h : Breaks s ws) (t : String) (vs : List String) :
    Breaks (s ++ t) (ws ++ vs) := by
  obtain ⟨before, ss, word, after, more, hs, hspells, hws, hquote⟩ := h
  refine ⟨before, ss, word, after ++ t.toList, more ++ vs, ?_, hspells, ?_, hquote⟩
  · rw [String.toList_append, hs, List.append_assoc, List.cons_append, List.append_assoc,
      List.cons_append]
  · rw [hws, List.append_assoc, List.cons_append]

theorem Breaks.append_left (hs : Spells s.toList ss) (h : Breaks t ws) :
    Breaks (s ++ t) (wordsIn ss ++ ws) := by
  obtain ⟨before, ss', word, after, more, ht, hspells, hws, hquote⟩ := h
  refine ⟨s.toList ++ before, ss ++ ss', word, after, more, ?_, hs.append hspells, ?_, hquote⟩
  · rw [String.toList_append, ht, List.append_assoc]
  · rw [hws, wordsIn_append, List.append_assoc]

/-- Texts one after the other are read as they were meant up to the first that breaks. -/
theorem SpellsOrBreaks.append (hs : SpellsOrBreaks s ws) (ht : SpellsOrBreaks t vs) :
    SpellsOrBreaks (s ++ t) (ws ++ vs) := by
  rcases hs with ⟨hplain, ss, hs, rfl⟩ | hs
  · rcases ht with ⟨hplain', ts, ht, rfl⟩ | ht
    · refine .inl ⟨?_, ss ++ ts, ?_, wordsIn_append ss ts⟩
      · exact List.forall_mem_append.mpr ⟨hplain, hplain'⟩
      · rw [String.toList_append]
        exact hs.append ht
    · exact .inr (ht.append_left hs)
  · exact .inr (hs.append_right t vs)

/-- Symbols that are no keywords do not break. -/
theorem Spells.spellsOrBreaks (h : Spells s.toList ss) (hnone : wordsIn ss = []) :
    SpellsOrBreaks s [] :=
  .inl ⟨nofun, ss, h, hnone⟩

theorem spellsOrBreaks_quoted {text : String} (hne : text ≠ "") :
    SpellsOrBreaks ("\"" ++ text ++ "\"") [text] := by
  by_cases hquote : '"' ∈ text.toList
  · refine .inr ⟨[], [], text, [], [], ?_, Spells.nil, rfl, hquote⟩
    rw [String.toList_append, String.toList_append]
    rfl
  · exact .inl ⟨List.forall_mem_singleton.mpr hquote, [.word text true],
      spells_quoted hne hquote, rfl⟩

theorem SpellsOrBreaks.parenthesized (h : SpellsOrBreaks s ws) (needed : Bool) :
    SpellsOrBreaks (Expr.parenthesized needed s) ws := by
  cases needed with
  | false => exact h
  | true =>
    have hopening : SpellsOrBreaks "(" [] := Spells.spellsOrBreaks (s := "(") Spells.opening rfl
    have hclosing : SpellsOrBreaks ")" [] := Spells.spellsOrBreaks (s := ")") Spells.closing rfl
    have hall := (hopening.append h).append hclosing
    rw [List.nil_append, List.append_nil] at hall
    exact hall

/-- Operands are joined by what is no keyword. -/
theorem SpellsOrBreaks.join {separator : String} (hseparator : SpellsOrBreaks separator [])
    (hs : SpellsOrBreaks s ws) (ht : SpellsOrBreaks t vs) :
    SpellsOrBreaks (s ++ separator ++ t) (ws ++ vs) := by
  have hall := (hs.append hseparator).append ht
  rwa [List.append_nil] at hall

/-- A written expression is read as it was meant, or breaks at a keyword that holds a quote. -/
theorem spellsOrBreaks_render (e : Expr) (hgrouped : e.Grouped) (hwords : ∀ w ∈ e.words, w ≠ "") :
    SpellsOrBreaks e.render e.words := by
  induction e with
  | keyword text => exact spellsOrBreaks_quoted (hwords text (List.mem_singleton_self text))
  | not e ih =>
    obtain _ | hgrouped := hgrouped
    have hnot : SpellsOrBreaks "NOT " [] := spells_not.spellsOrBreaks rfl
    exact hnot.append ((ih hgrouped hwords).parenthesized _)
  | all es ih =>
    obtain _ | _ | ⟨two, hgrouped⟩ := hgrouped
    rw [Expr.words, Expr.wordsOfEach_eq_flatMap] at hwords ⊢
    rw [Expr.render, Expr.renderFactors_eq_map]
    have hand : SpellsOrBreaks " AND " [] := spells_and.spellsOrBreaks rfl
    refine intercalate_induction (fun _ _ _ _ => hand.join) ?_ fun e he => ?_
    · rintro rfl
      simp at two
    · exact (ih e he (hgrouped e he) fun w hw =>
        hwords w (List.mem_flatMap.mpr ⟨e, he, hw⟩)).parenthesized _
  | any es ih =>
    obtain _ | _ | _ | ⟨two, hgrouped⟩ := hgrouped
    rw [Expr.words, Expr.wordsOfEach_eq_flatMap] at hwords ⊢
    rw [Expr.render, Expr.renderTerms_eq_map]
    have hor : SpellsOrBreaks " OR " [] := spells_or.spellsOrBreaks rfl
    refine intercalate_induction (fun _ _ _ _ => hor.join) ?_ fun e he => ?_
    · rintro rfl
      simp at two
    · exact ih e he (hgrouped e he) fun w hw =>
        hwords w (List.mem_flatMap.mpr ⟨e, he, hw⟩)

/-- The tokens of a text that breaks: behind what is read as it was meant comes the part of the
keyword in front of its quote, and the part behind it is read for itself. -/
theorem Breaks.exists_tokens (h : Breaks s ws) {ts : List Token} (htokens : tokens s = .ok ts) :
    ∃ ss word more front back after position us,
      ws = wordsIn ss ++ word :: more ∧ word.toList = front ++ '"' :: back ∧ '"' ∉ front
        ∧ scan position (back ++ '"' :: after) = .ok us
        ∧ ts.map Token.symbol
          = ss ++ .word (String.ofList front) true :: us.map Token.symbol := by
  obtain ⟨before, ss, word, after, more, hs, hspells, hws, hquote⟩ := h
  obtain ⟨front, back, hword, hfront⟩ := List.eq_append_cons_of_mem hquote
  obtain ⟨vs, hvs, hscan⟩ := hspells 0 ('"' :: (word.toList ++ '"' :: after))
  rw [tokens, hs, hscan] at htokens
  obtain ⟨us, hus, rfl⟩ := exists_of_map_eq_ok htokens
  rw [hword, List.append_assoc, List.cons_append] at hus
  by_cases hempty : front = []
  -- two quotes in a row are refused, so such a text has no tokens
  · rw [hempty, List.nil_append, scan_emptyQuote] at hus
    cases hus
  · rw [scan_quoted _ hfront hempty] at hus
    obtain ⟨us, hback, rfl⟩ := exists_of_map_eq_ok hus
    refine ⟨ss, word, more, front, back, after, _, us, hws, hword, hfront, hback, ?_⟩
    rw [List.map_append, hvs, List.map_cons]

/-- **What breaks is read with other keywords.** -/
theorem words_ne_of_breaks (h : Breaks s ws) {e : Expr} (hparse : parse s = .ok e) :
    e.words ≠ ws := by
  obtain ⟨ts, htokens, d, hsymbols, rfl⟩ := parse_eq_ok_iff.mp hparse
  obtain ⟨ss, word, more, front, back, after, position, us, rfl, hword, hfront, -, hts⟩ :=
    h.exists_tokens htokens
  rw [d.words_value_expression, hsymbols, hts, wordsIn_append]
  intro heq
  -- behind the common words, `front` is read in place of `word`, which is longer
  obtain ⟨hfront', -⟩ := List.cons.inj (List.append_cancel_left heq)
  apply hfront
  rw [← String.toList_ofList (l := front), hfront', hword]
  exact List.mem_append_right _ (List.mem_cons_self ..)

/-- **What breaks at a bare word is not read at all.** The rest of the word is a word again,
or a quote that does not close. -/
theorem exists_parse_error_of_breaks (h : Breaks s ws)
    (hbare : ∀ w ∈ ws, '"' ∈ w.toList → IsBare w) : ∃ error, parse s = .error error := by
  rcases hparse : parse s with error | e
  · exact ⟨error, rfl⟩
  · exfalso
    obtain ⟨ts, htokens, d, hsymbols, -⟩ := parse_eq_ok_iff.mp hparse
    obtain ⟨ss, word, more, front, back, after, position, us, rfl, hword, -, hscan, hts⟩ :=
      h.exists_tokens htokens
    have hquote : '"' ∈ word.toList := by
      rw [hword]
      exact List.mem_append_right _ (List.mem_cons_self ..)
    have hchars := hbare word (List.mem_append_right _ (List.mem_cons_self ..)) hquote
    rw [IsBare, hword] at hchars
    obtain ⟨text, isQuoted, vs, hus⟩ := startsWithWord_of_scan
      (fun c hc => List.all_eq_true.mp hchars c
        (List.mem_append_right _ (List.mem_cons_of_mem _ hc))) hscan
    -- the word in front of the quote and the one behind it stand side by side
    rw [hus] at hts
    exact d.symbols_ne_of_words _ _ _ _ _ _ (hsymbols.trans hts)

/-! ## Compiled queries -/

/-- Plain keywords are joined by AND or by OR. -/
theorem operatorOf?_cases {logic : Option String} {operator : List Expr → Expr}
    (h : operatorOf? logic = some operator) : operator = .all ∨ operator = .any := by
  unfold operatorOf? at h
  split at h
  · exact .inl (Option.some.inj h).symm
  · exact .inr (Option.some.inj h).symm
  · cases h

/-- What is made of plain keywords has one that is not empty for each of them. -/
theorem of_ofKeywords_eq_ok {keywords : List String} {logic : Option String} {e : Expr}
    (h : ofKeywords keywords logic = .ok e) : e.Grouped ∧ ∀ w ∈ e.words, w ≠ "" := by
  unfold ofKeywords at h
  split at h
  · rename_i operator hoperator
    have hjoin := operatorOf?_cases hoperator
    split at h
    · cases h
    · rename_i hne
      obtain rfl := Except.ok.inj h
      refine ⟨Expr.grouped_join hjoin (mt List.map_eq_nil_iff.mp hne) ?_, ?_⟩
      · intro f hf
        obtain ⟨k, -, rfl⟩ := List.mem_map.mp hf
        exact .keyword k
      · rw [Expr.words_join hjoin, Expr.words_map_keyword]
        rintro w hw rfl
        obtain ⟨-, hnonempty⟩ := List.mem_filter.mp hw
        exact absurd hnonempty (by decide)
  · cases h

/-- What holds of every query that is compiled. A keyword that is read off an expression can
only hold a quote if it is a bare word. -/
theorem of_compile_eq_ok {text : String} {logic : Option String} {e : Expr}
    (h : compile text logic = .ok e) :
    e.Grouped ∧ (∀ w ∈ e.words, w ≠ "")
      ∧ ((logic.getD "").isEmpty = true → ∀ w ∈ e.words, '"' ∈ w.toList → IsBare w) := by
  unfold compile at h
  by_cases hlogic : (logic.getD "").isEmpty = true
  · rw [if_pos hlogic] at h
    obtain ⟨ts, htokens, d, hsymbols, rfl⟩ := parse_eq_ok_iff.mp h
    have hscanned : ∀ w ∈ d.value.words, w ≠ "" ∧ ('"' ∈ w.toList → IsBare w) := by
      rw [d.words_value_expression, hsymbols]
      exact fun w hw => word_of_scan htokens hw
    exact ⟨List.forall_mem_singleton.mp d.grouped_value, fun w hw => (hscanned w hw).1,
      fun _ w hw => (hscanned w hw).2⟩
  · rw [if_neg hlogic] at h
    obtain ⟨hgrouped, hwords⟩ := of_ofKeywords_eq_ok h
    exact ⟨hgrouped, hwords, fun hempty => absurd hempty hlogic⟩

/-- **What a compiled query is written as.** Where no keyword holds a quote, the written form
is accepted and says the same. In general it is accepted with the same keywords exactly if
none holds a quote. For a query that is an expression this decides whether the written form
is accepted at all; for plain keywords it may be accepted with others. -/
theorem parse_render_compiled {text : String} {logic : Option String} {e : Expr}
    (h : compile text logic = .ok e) :
    ((∀ w ∈ e.words, '"' ∉ w.toList) → ∃ e', parse e.render = .ok e'
        ∧ ∀ content, e'.holdsFor content = e.holdsFor content)
      ∧ ((∃ e', parse e.render = .ok e' ∧ e'.words = e.words) ↔ ∀ w ∈ e.words, '"' ∉ w.toList)
      ∧ ((logic.getD "").isEmpty = true →
        ((∃ e', parse e.render = .ok e') ↔ ∀ w ∈ e.words, '"' ∉ w.toList)) := by
  obtain ⟨hgrouped, hne, hbare⟩ := of_compile_eq_ok h
  have hread : (∀ w ∈ e.words, '"' ∉ w.toList) → parse e.render = .ok e.flatten :=
    fun hquote => parse_render_of_plain hgrouped fun w hw => ⟨hne w hw, hquote w hw⟩
  have hbreaks : (¬ ∀ w ∈ e.words, '"' ∉ w.toList) → Breaks e.render e.words := fun hquote =>
    (spellsOrBreaks_render e hgrouped hne).resolve_left fun hplain => hquote hplain.1
  refine ⟨fun hquote => ⟨e.flatten, hread hquote, fun content => ?_⟩, ⟨?_, ?_⟩,
    fun hlogic => ⟨?_, ?_⟩⟩
  · exact Expr.holdsInLowered_flatten _ e
  · rintro ⟨e', hparse, hwords⟩
    by_contra hquote
    exact words_ne_of_breaks (hbreaks hquote) hparse hwords
  · exact fun hquote => ⟨e.flatten, hread hquote, e.words_flatten⟩
  · rintro ⟨e', hparse⟩
    by_contra hquote
    obtain ⟨error, herror⟩ := exists_parse_error_of_breaks (hbreaks hquote) (hbare hlogic)
    rw [hparse] at herror
    cases herror
  · exact fun hquote => ⟨e.flatten, hread hquote⟩

/-- An operator word in quotes next to an operator in small letters. -/
theorem parse_render_compiled_quotedOperator :
    compile "\"AND\" or \"x\"" none = .ok (.any [.keyword "AND", .keyword "x"])
      ∧ ∃ e', parse (Expr.any [.keyword "AND", .keyword "x"]).render = .ok e'
        ∧ ∀ content, e'.holdsFor content
          = (Expr.any [.keyword "AND", .keyword "x"]).holdsFor content := by
  have hfirst : Spells ("\"" ++ "AND" ++ "\"").toList [.word "AND" true] :=
    spells_quoted (by decide) (by decide)
  have hblank : Spells [' '] [] := Spells.blank (by decide)
  have hor : Spells ('o' :: (['r'] ++ [' '])) [.or] :=
    Spells.word (by decide) (by decide) (by decide) (by decide)
  have hsecond : Spells ("\"" ++ "x" ++ "\"").toList [.word "x" true] :=
    spells_quoted (by decide) (by decide)
  have hspells : Spells "\"AND\" or \"x\"".toList [.word "AND" true, .or, .word "x" true] :=
    hfirst.append ((hblank.append hor).append hsecond)
  obtain ⟨ts, htokens, hsymbols⟩ := hspells.tokens
  have hcompile : compile "\"AND\" or \"x\"" none
      = .ok (.any [.keyword "AND", .keyword "x"]) := by
    rw [compile, if_pos (by decide)]
    exact parse_eq_ok_iff.mpr ⟨ts, htokens, .expression (.term (.keyword "AND" true) .noFactor)
      (.orTerm (.term (.keyword "x" true) .noFactor) .noTerm), hsymbols.symm, rfl⟩
  exact ⟨hcompile, (parse_render_compiled hcompile).1 (by decide)⟩

/-- A query for a keyword with a quote in it whose written form is refused, and plain keywords
whose written form is accepted and says something else. -/
theorem parse_render_keyword_with_quote :
    compile "a\"b" none = .ok (.keyword "a\"b")
      ∧ (∃ error, parse (Expr.keyword "a\"b").render = .error error)
      ∧ compile "a\" OR \"b" (some "and") = .ok (.keyword "a\" OR \"b")
      ∧ parse (Expr.keyword "a\" OR \"b").render = .ok (.any [.keyword "a", .keyword "b"])
      ∧ (Expr.any [.keyword "a", .keyword "b"]).holdsFor "a" = true
      ∧ (Expr.keyword "a\" OR \"b").holdsFor "a" = false := by
  refine ⟨?_, ?_, ?_, ?_, by decide, by decide⟩
  · have htokens : tokens "a\"b" = .ok [⟨.word "a\"b" false, 0⟩] := by
      show scan 0 ['a', '"', 'b'] = _
      rw [scan_word 0 (by decide) (by decide)]
      show (scan 3 []).map _ = _
      rw [scan_nil]
      rfl
    rw [compile, if_pos (by decide)]
    exact parse_eq_ok_iff.mpr ⟨_, htokens,
      .expression (.term (.keyword "a\"b" false) .noFactor) .noTerm, rfl, rfl⟩
  · have hbreaks : Breaks (Expr.keyword "a\"b").render ["a\"b"] :=
      ⟨[], [], "a\"b", [], [], by decide, Spells.nil, rfl, by decide⟩
    refine exists_parse_error_of_breaks hbreaks ?_
    rintro w hw -
    obtain rfl := List.mem_singleton.mp hw
    show "a\"b".toList.all isWordChar = true
    decide
  · rw [compile, if_neg (by decide), ofKeywordLines, Text.splitLines, Text.splitOn,
      Text.splitChars]
    rfl
  · exact parse_render_of_plain (e := .any [.keyword "a", .keyword "b"])
      (.any (by decide) (List.forall_mem_cons.mpr ⟨.keyword _,
        List.forall_mem_singleton.mpr (.keyword _)⟩)) (by decide)

end LogSearch.Query
