/-
The grammar of queries, and that the parser decides it.

    Expression := Term ( OR Term )*
    Term       := Factor ( AND Factor )*
    Factor     := NOT Factor | '(' Expression ')' | keyword

A derivation is data here: a tree with one constructor for each way to make up a
phrase, where a repetition is a phrase of its own. What it derives are the symbols at
its leaves, and what it says is an expression, or a list of operands for a
repetition. So "the derivation is unique" is an equation between trees, and it says
more than that the expression is unique, since parentheses leave no node.

The parser takes a phrase off the front of some tokens and stops where the phrase
cannot go on. A derivation says nothing about what comes behind it, so the side
condition `EndsBefore` does: it rules out the operators that would prolong the phrase.
Under it both directions go through by one induction each. `eq_of_append` is on two
derivations of the same symbols, `read_append` on a derivation that the parser has to
find. Soundness (`derives_of_read`) needs no side condition and follows the parser,
by the number of tokens and below that by the level of the phrase.
-/
import LogSearch.Chain
import LogSearch.Proofs.Query.Spelling
import LogSearch.Query.Parse

set_option autoImplicit false

namespace LogSearch.Query

/-! ## Derivations -/

/-- The phrases of the grammar, the repetitions among them. -/
inductive Phrase where
  /-- Terms joined by OR. -/
  | expression
  /-- Further terms, each with an OR in front. -/
  | moreTerms
  /-- Factors joined by AND. -/
  | term
  /-- Further factors, each with an AND in front. -/
  | moreFactors
  /-- A negation, an expression in parentheses or a keyword. -/
  | factor

/-- What a phrase says: operands if it is a repetition, else an expression. -/
abbrev Phrase.Value : Phrase → Type
  | .moreTerms => List Expr
  | .moreFactors => List Expr
  | _ => Expr

/-- The ways to derive a phrase. -/
inductive Derivation : Phrase → Type where
  | expression (first : Derivation .term) (others : Derivation .moreTerms) : Derivation .expression
  | noTerm : Derivation .moreTerms
  | orTerm (next : Derivation .term) (others : Derivation .moreTerms) : Derivation .moreTerms
  | term (first : Derivation .factor) (others : Derivation .moreFactors) : Derivation .term
  | noFactor : Derivation .moreFactors
  | andFactor (next : Derivation .factor) (others : Derivation .moreFactors) :
    Derivation .moreFactors
  | not (operand : Derivation .factor) : Derivation .factor
  | group (inner : Derivation .expression) : Derivation .factor
  | keyword (text : String) (isQuoted : Bool) : Derivation .factor

namespace Derivation

/-- The symbols that a derivation derives. -/
def symbols : {p : Phrase} → Derivation p → List Symbol
  | _, expression first others => first.symbols ++ others.symbols
  | _, noTerm => []
  | _, orTerm next others => .or :: (next.symbols ++ others.symbols)
  | _, term first others => first.symbols ++ others.symbols
  | _, noFactor => []
  | _, andFactor next others => .and :: (next.symbols ++ others.symbols)
  | _, not operand => .not :: operand.symbols
  | _, group inner => .opening :: (inner.symbols ++ [.closing])
  | _, keyword text isQuoted => [.word text isQuoted]

/-- One operand stands for itself, two or more are joined at one level. -/
def combine (operator : List Expr → Expr) (first : Expr) : List Expr → Expr
  | [] => first
  | next :: others => operator (first :: next :: others)

/-- What a derivation says. Parentheses leave no node. -/
def value : {p : Phrase} → Derivation p → p.Value
  | _, expression first others => combine .any first.value others.value
  | _, noTerm => ([] : List Expr)
  | _, orTerm next others => (next.value :: others.value : List Expr)
  | _, term first others => combine .all first.value others.value
  | _, noFactor => ([] : List Expr)
  | _, andFactor next others => (next.value :: others.value : List Expr)
  | _, not operand => Expr.not operand.value
  | _, group inner => inner.value
  | _, keyword text _ => Expr.keyword text

end Derivation

/-! ## Where a phrase ends -/

/-- The operators that prolong a phrase which they follow. -/
def Phrase.prolongers : Phrase → List Symbol
  | .expression => [.and, .or]
  | .moreTerms => [.and, .or]
  | .term => [.and]
  | .moreFactors => [.and]
  | .factor => []

/-- What follows does not prolong the phrase. -/
def Phrase.EndsBefore (p : Phrase) (rest : List Symbol) : Prop :=
  ∀ s ∈ p.prolongers, rest.head? ≠ some s

variable {rest : List Symbol}

theorem endsBefore_nil (p : Phrase) : p.EndsBefore [] :=
  fun _ _ h => nomatch h

/-- A factor is as long as it is, whatever follows. -/
theorem endsBefore_factor (rest : List Symbol) : Phrase.factor.EndsBefore rest :=
  fun _ h => absurd h List.not_mem_nil

/-- No phrase goes on at a closing parenthesis. -/
theorem endsBefore_closing (p : Phrase) (rest : List Symbol) :
    p.EndsBefore (.closing :: rest) := by
  intro s hs hhead
  obtain rfl : Symbol.closing = s := Option.some.inj hhead
  cases p <;> simp [Phrase.prolongers] at hs

/-- A phrase would go on at an operator that prolongs it. -/
theorem Phrase.EndsBefore.ne_cons {p : Phrase} (h : p.EndsBefore rest) {s : Symbol}
    (hs : s ∈ p.prolongers) (behind : List Symbol) : rest ≠ s :: behind := by
  rintro rfl
  exact h s hs rfl

/-- Behind a term comes an OR, or what does not prolong the terms. -/
theorem Phrase.EndsBefore.term (h : Phrase.moreTerms.EndsBefore rest)
    (d : Derivation .moreTerms) : Phrase.term.EndsBefore (d.symbols ++ rest) := by
  intro s hs
  obtain rfl : s = .and := List.mem_singleton.mp hs
  cases d with
  | noTerm => exact h .and (List.mem_cons_self ..)
  | orTerm next others => exact fun hhead => Symbol.noConfusion (Option.some.inj hhead)

namespace Derivation

variable {p : Phrase}

/-! ## Unambiguity -/

/-- **A derivation is read off its symbols.** Two derivations of a phrase whose symbols
start the same list, and which end where they cannot go on, are the same. -/
theorem eq_of_append (d₁ : Derivation p) : ∀ (d₂ : Derivation p) {r₁ r₂ : List Symbol},
    p.EndsBefore r₁ → p.EndsBefore r₂ → d₁.symbols ++ r₁ = d₂.symbols ++ r₂ →
      d₁ = d₂ ∧ r₁ = r₂ := by
  -- the first parts of both end where the second parts begin, so they are equal, and so on
  induction d₁ with
  | expression first others ihfirst ihothers =>
    intro d₂ r₁ r₂ h₁ h₂ h
    cases d₂ with
    | expression first' others' =>
      rw [symbols, symbols, List.append_assoc, List.append_assoc] at h
      obtain ⟨rfl, htail⟩ := ihfirst first' (Phrase.EndsBefore.term h₁ others)
        (Phrase.EndsBefore.term h₂ others') h
      obtain ⟨rfl, rfl⟩ := ihothers others' h₁ h₂ htail
      exact ⟨rfl, rfl⟩
  | noTerm =>
    intro d₂ r₁ r₂ h₁ h₂ h
    cases d₂ with
    | noTerm => exact ⟨rfl, h⟩
    | orTerm next others =>
      -- the OR of the second derivation would stand behind the first one
      have hor : .or ∈ Phrase.moreTerms.prolongers := by simp [Phrase.prolongers]
      exact absurd h (h₁.ne_cons hor _)
  | orTerm next others ihnext ihothers =>
    intro d₂ r₁ r₂ h₁ h₂ h
    cases d₂ with
    | noTerm =>
      have hor : .or ∈ Phrase.moreTerms.prolongers := by simp [Phrase.prolongers]
      exact absurd h.symm (h₂.ne_cons hor _)
    | orTerm next' others' =>
      rw [symbols, symbols, List.cons_append, List.cons_append, List.append_assoc,
        List.append_assoc] at h
      obtain ⟨rfl, htail⟩ := ihnext next' (Phrase.EndsBefore.term h₁ others)
        (Phrase.EndsBefore.term h₂ others') (List.cons.inj h).2
      obtain ⟨rfl, rfl⟩ := ihothers others' h₁ h₂ htail
      exact ⟨rfl, rfl⟩
  | term first others ihfirst ihothers =>
    intro d₂ r₁ r₂ h₁ h₂ h
    cases d₂ with
    | term first' others' =>
      rw [symbols, symbols, List.append_assoc, List.append_assoc] at h
      obtain ⟨rfl, htail⟩ := ihfirst first' (endsBefore_factor _) (endsBefore_factor _) h
      obtain ⟨rfl, rfl⟩ := ihothers others' h₁ h₂ htail
      exact ⟨rfl, rfl⟩
  | noFactor =>
    intro d₂ r₁ r₂ h₁ h₂ h
    cases d₂ with
    | noFactor => exact ⟨rfl, h⟩
    | andFactor next others => exact absurd h (h₁.ne_cons List.mem_cons_self _)
  | andFactor next others ihnext ihothers =>
    intro d₂ r₁ r₂ h₁ h₂ h
    cases d₂ with
    | noFactor => exact absurd h.symm (h₂.ne_cons List.mem_cons_self _)
    | andFactor next' others' =>
      rw [symbols, symbols, List.cons_append, List.cons_append, List.append_assoc,
        List.append_assoc] at h
      obtain ⟨rfl, htail⟩ := ihnext next' (endsBefore_factor _) (endsBefore_factor _)
        (List.cons.inj h).2
      obtain ⟨rfl, rfl⟩ := ihothers others' h₁ h₂ htail
      exact ⟨rfl, rfl⟩
  | not operand ih =>
    intro d₂ r₁ r₂ h₁ h₂ h
    cases d₂ with
    | not operand' =>
      obtain ⟨rfl, rfl⟩ := ih operand' h₁ h₂ (List.cons.inj h).2
      exact ⟨rfl, rfl⟩
    | group inner => exact Symbol.noConfusion (List.cons.inj h).1
    | keyword text isQuoted => exact Symbol.noConfusion (List.cons.inj h).1
  | group inner ih =>
    intro d₂ r₁ r₂ h₁ h₂ h
    cases d₂ with
    | not operand' => exact Symbol.noConfusion (List.cons.inj h).1
    | group inner' =>
      rw [symbols, symbols, List.cons_append, List.cons_append, List.append_assoc,
        List.append_assoc] at h
      obtain ⟨rfl, htail⟩ := ih inner' (endsBefore_closing _ _) (endsBefore_closing _ _)
        (List.cons.inj h).2
      exact ⟨rfl, (List.cons.inj htail).2⟩
    | keyword text isQuoted => exact Symbol.noConfusion (List.cons.inj h).1
  | keyword text isQuoted =>
    intro d₂ r₁ r₂ h₁ h₂ h
    cases d₂ with
    | not operand => exact Symbol.noConfusion (List.cons.inj h).1
    | group inner => exact Symbol.noConfusion (List.cons.inj h).1
    | keyword text' isQuoted' =>
      obtain ⟨hsymbol, hrest⟩ := List.cons.inj h
      cases hsymbol
      exact ⟨rfl, hrest⟩

/-- The grammar is unambiguous. -/
theorem eq_of_symbols_eq {d₁ d₂ : Derivation p} (h : d₁.symbols = d₂.symbols) : d₁ = d₂ :=
  (eq_of_append d₁ d₂ (endsBefore_nil p) (endsBefore_nil p) (by rw [h])).1

end Derivation

/-! ## What the parser does on a phrase -/

/-- What the parser takes off the front of some tokens as a phrase, and what it leaves. -/
def Phrase.read : (p : Phrase) → List Token → Except SyntaxError (p.Value × List Token)
  | .expression, ts => (Query.expression ts).map fun r => (r.expr, r.rest)
  | .moreTerms, ts => (Query.moreTerms ts).map fun o => (o.exprs, o.rest)
  | .term, ts => (Query.term ts).map fun r => (r.expr, r.rest)
  | .moreFactors, ts => (Query.moreFactors ts).map fun o => (o.exprs, o.rest)
  | .factor, ts => (Query.factor ts).map fun r => (r.expr, r.rest)

theorem join_cons (operator : List Expr → Expr) (first : Expr) (others : List Expr) :
    Expr.join operator (first :: others) = Derivation.combine operator first others := by
  cases others <;> rfl

theorem read_expression (ts : List Token) :
    Phrase.expression.read ts = Phrase.term.read ts >>= fun first =>
      (Phrase.moreTerms.read first.2).map fun others =>
        (Derivation.combine .any first.1 others.1, others.2) := by
  rw [Phrase.read, Phrase.read, expression]
  rcases term ts with e | ⟨first, mid, h⟩
  · rfl
  · dsimp only [Except.map, bind, Except.bind, Phrase.read]
    rcases moreTerms mid with e | ⟨others, rest, h'⟩
    · rfl
    · dsimp only
      rw [join_cons]

theorem read_moreTerms_or (position : Nat) (ts : List Token) :
    Phrase.moreTerms.read (⟨.or, position⟩ :: ts) = Phrase.term.read ts >>= fun next =>
      (Phrase.moreTerms.read next.2).map fun others => (next.1 :: others.1, others.2) := by
  rw [Phrase.read, Phrase.read, moreTerms]
  rcases term ts with e | ⟨next, mid, h⟩
  · rfl
  · dsimp only [Except.map, bind, Except.bind, Phrase.read]
    rcases moreTerms mid with e | ⟨others, rest, h'⟩ <;> rfl

/-- Without an OR there are no further terms. -/
theorem read_moreTerms_of_head?_ne {ts : List Token}
    (h : (ts.map Token.symbol).head? ≠ some .or) : Phrase.moreTerms.read ts = .ok ([], ts) := by
  rw [Phrase.read, moreTerms]
  · rfl
  · rintro position ts' rfl
    exact h rfl

theorem read_term (ts : List Token) :
    Phrase.term.read ts = Phrase.factor.read ts >>= fun first =>
      (Phrase.moreFactors.read first.2).map fun others =>
        (Derivation.combine .all first.1 others.1, others.2) := by
  rw [Phrase.read, Phrase.read, term]
  rcases factor ts with e | ⟨first, mid, h⟩
  · rfl
  · dsimp only [Except.map, bind, Except.bind, Phrase.read]
    rcases moreFactors mid with e | ⟨others, rest, h'⟩
    · rfl
    · dsimp only
      rw [join_cons]

theorem read_moreFactors_and (position : Nat) (ts : List Token) :
    Phrase.moreFactors.read (⟨.and, position⟩ :: ts) = Phrase.factor.read ts >>= fun next =>
      (Phrase.moreFactors.read next.2).map fun others => (next.1 :: others.1, others.2) := by
  rw [Phrase.read, Phrase.read, moreFactors]
  rcases factor ts with e | ⟨next, mid, h⟩
  · rfl
  · dsimp only [Except.map, bind, Except.bind, Phrase.read]
    rcases moreFactors mid with e | ⟨others, rest, h'⟩ <;> rfl

/-- Without an AND there are no further factors. -/
theorem read_moreFactors_of_head?_ne {ts : List Token}
    (h : (ts.map Token.symbol).head? ≠ some .and) : Phrase.moreFactors.read ts = .ok ([], ts) := by
  rw [Phrase.read, moreFactors]
  · rfl
  · rintro position ts' rfl
    exact h rfl

theorem read_factor_word (text : String) (isQuoted : Bool) (position : Nat) (ts : List Token) :
    Phrase.factor.read (⟨.word text isQuoted, position⟩ :: ts) = .ok (.keyword text, ts) := by
  rw [Phrase.read, factor]
  rfl

theorem read_factor_not (position : Nat) (ts : List Token) :
    Phrase.factor.read (⟨.not, position⟩ :: ts)
      = (Phrase.factor.read ts).map fun operand => (Expr.not operand.1, operand.2) := by
  rw [Phrase.read, Phrase.read, factor]
  rcases factor ts with e | ⟨operand, rest, h⟩ <;> rfl

theorem read_factor_opening (position : Nat) (ts : List Token) :
    Phrase.factor.read (⟨.opening, position⟩ :: ts) = Phrase.expression.read ts >>= fun inner =>
      match afterClosing? inner.2 with
      | none => .error (.unclosed position inner.2.head?)
      | some rest => .ok (inner.1, rest) := by
  rw [Phrase.read, Phrase.read, factor]
  rcases expression ts with e | ⟨inner, mid, h⟩
  · rfl
  · dsimp only [Except.map, bind, Except.bind]
    -- the parser keeps the equation of this match, so the cases are those of the tokens
    rcases mid with _ | ⟨⟨symbol, position'⟩, rest⟩
    · rfl
    · cases symbol <;> rfl

/-- A factor starts with a word, a NOT or an opening parenthesis. -/
theorem head?_of_read_factor {ts : List Token} {e : Expr} {rest : List Token}
    (h : Phrase.factor.read ts = .ok (e, rest)) :
    (ts.map Token.symbol).head? = some .not ∨ (ts.map Token.symbol).head? = some .opening
      ∨ ∃ text isQuoted, (ts.map Token.symbol).head? = some (.word text isQuoted) := by
  rcases ts with _ | ⟨⟨symbol, position⟩, ts⟩
  · simp [Phrase.read, factor, Except.map] at h
  · cases symbol with
    | not => exact .inl rfl
    | opening => exact .inr (.inl rfl)
    | word text isQuoted => exact .inr (.inr ⟨text, isQuoted, rfl⟩)
    | _ => simp [Phrase.read, factor, Except.map] at h

/-! ## Completeness -/

/-- **The parser finds every derivation.** Where the phrase ends before the rest, the
parser takes exactly the tokens that are derived. -/
theorem Derivation.read_append {p : Phrase} (d : Derivation p) : ∀ {us rest : List Token},
    us.map Token.symbol = d.symbols → p.EndsBefore (rest.map Token.symbol) →
      p.read (us ++ rest) = .ok (d.value, rest) := by
  -- the tokens are cut where the parts of the derivation meet, and each part ends there
  induction d with
  | expression first others ihfirst ihothers =>
    intro us rest hus hrest
    obtain ⟨us, vs, rfl, hfirst, hothers⟩ := List.map_eq_append_iff.mp hus
    have hends : Phrase.term.EndsBefore ((vs ++ rest).map Token.symbol) := by
      rw [List.map_append, hothers]
      exact Phrase.EndsBefore.term hrest others
    rw [List.append_assoc, read_expression, ihfirst hfirst hends]
    show (Phrase.moreTerms.read (vs ++ rest)).map _ = _
    rw [ihothers hothers hrest]
    rfl
  | noTerm =>
    intro us rest hus hrest
    rw [List.map_eq_nil_iff.mp hus, List.nil_append]
    exact read_moreTerms_of_head?_ne (hrest .or (by simp [Phrase.prolongers]))
  | orTerm next others ihnext ihothers =>
    intro us rest hus hrest
    obtain ⟨⟨symbol, position⟩, us, rfl, rfl, htail⟩ := List.map_eq_cons_iff.mp hus
    obtain ⟨us, vs, rfl, hnext, hothers⟩ := List.map_eq_append_iff.mp htail
    have hends : Phrase.term.EndsBefore ((vs ++ rest).map Token.symbol) := by
      rw [List.map_append, hothers]
      exact Phrase.EndsBefore.term hrest others
    rw [List.cons_append, List.append_assoc, read_moreTerms_or, ihnext hnext hends]
    show (Phrase.moreTerms.read (vs ++ rest)).map _ = _
    rw [ihothers hothers hrest]
    rfl
  | term first others ihfirst ihothers =>
    intro us rest hus hrest
    obtain ⟨us, vs, rfl, hfirst, hothers⟩ := List.map_eq_append_iff.mp hus
    rw [List.append_assoc, read_term, ihfirst hfirst (endsBefore_factor _)]
    show (Phrase.moreFactors.read (vs ++ rest)).map _ = _
    rw [ihothers hothers hrest]
    rfl
  | noFactor =>
    intro us rest hus hrest
    rw [List.map_eq_nil_iff.mp hus, List.nil_append]
    exact read_moreFactors_of_head?_ne (hrest .and (List.mem_cons_self ..))
  | andFactor next others ihnext ihothers =>
    intro us rest hus hrest
    obtain ⟨⟨symbol, position⟩, us, rfl, rfl, htail⟩ := List.map_eq_cons_iff.mp hus
    obtain ⟨us, vs, rfl, hnext, hothers⟩ := List.map_eq_append_iff.mp htail
    rw [List.cons_append, List.append_assoc, read_moreFactors_and,
      ihnext hnext (endsBefore_factor _)]
    show (Phrase.moreFactors.read (vs ++ rest)).map _ = _
    rw [ihothers hothers hrest]
    rfl
  | not operand ih =>
    intro us rest hus hrest
    obtain ⟨⟨symbol, position⟩, us, rfl, rfl, htail⟩ := List.map_eq_cons_iff.mp hus
    rw [List.cons_append, read_factor_not, ih htail hrest]
    rfl
  | group inner ih =>
    intro us rest hus hrest
    obtain ⟨⟨symbol, position⟩, us, rfl, rfl, htail⟩ := List.map_eq_cons_iff.mp hus
    obtain ⟨us, vs, rfl, hinner, hclosing⟩ := List.map_eq_append_iff.mp htail
    obtain ⟨⟨symbol, position'⟩, vs, rfl, rfl, hvs⟩ := List.map_eq_cons_iff.mp hclosing
    obtain rfl := List.map_eq_nil_iff.mp hvs
    rw [List.cons_append, List.append_assoc, read_factor_opening,
      ih hinner (endsBefore_closing _ _)]
    rfl
  | keyword text isQuoted =>
    intro us rest hus hrest
    obtain ⟨⟨symbol, position⟩, us, rfl, rfl, htail⟩ := List.map_eq_cons_iff.mp hus
    obtain rfl := List.map_eq_nil_iff.mp htail
    exact read_factor_word text isQuoted position rest

/-! ## Soundness -/

/-- Some tokens start with a phrase that says `v`, and `rest` is behind it. -/
def Phrase.Derives (p : Phrase) (ts : List Token) (v : p.Value) (rest : List Token) : Prop :=
  ∃ (d : Derivation p) (us : List Token),
    ts = us ++ rest ∧ us.map Token.symbol = d.symbols ∧ d.value = v

namespace Phrase.Derives

variable {ts mid rest : List Token} {e : Expr} {es : List Expr}

theorem expression (h : Phrase.term.Derives ts e mid) (h' : Phrase.moreTerms.Derives mid es rest) :
    Phrase.expression.Derives ts (Derivation.combine .any e es) rest := by
  obtain ⟨d, us, rfl, hus, rfl⟩ := h
  obtain ⟨d', vs, rfl, hvs, rfl⟩ := h'
  refine ⟨.expression d d', us ++ vs, (List.append_assoc ..).symm, ?_, rfl⟩
  rw [List.map_append, hus, hvs, Derivation.symbols]

theorem noTerm (ts : List Token) : Phrase.moreTerms.Derives ts [] ts :=
  ⟨.noTerm, [], rfl, rfl, rfl⟩

theorem orTerm (position : Nat) (h : Phrase.term.Derives ts e mid)
    (h' : Phrase.moreTerms.Derives mid es rest) :
    Phrase.moreTerms.Derives (⟨.or, position⟩ :: ts) (e :: es) rest := by
  obtain ⟨d, us, rfl, hus, rfl⟩ := h
  obtain ⟨d', vs, rfl, hvs, rfl⟩ := h'
  refine ⟨.orTerm d d', ⟨.or, position⟩ :: (us ++ vs), ?_, ?_, rfl⟩
  · rw [List.cons_append, List.append_assoc]
  · rw [List.map_cons, List.map_append, hus, hvs, Derivation.symbols]

theorem term (h : Phrase.factor.Derives ts e mid) (h' : Phrase.moreFactors.Derives mid es rest) :
    Phrase.term.Derives ts (Derivation.combine .all e es) rest := by
  obtain ⟨d, us, rfl, hus, rfl⟩ := h
  obtain ⟨d', vs, rfl, hvs, rfl⟩ := h'
  refine ⟨.term d d', us ++ vs, (List.append_assoc ..).symm, ?_, rfl⟩
  rw [List.map_append, hus, hvs, Derivation.symbols]

theorem noFactor (ts : List Token) : Phrase.moreFactors.Derives ts [] ts :=
  ⟨.noFactor, [], rfl, rfl, rfl⟩

theorem andFactor (position : Nat) (h : Phrase.factor.Derives ts e mid)
    (h' : Phrase.moreFactors.Derives mid es rest) :
    Phrase.moreFactors.Derives (⟨.and, position⟩ :: ts) (e :: es) rest := by
  obtain ⟨d, us, rfl, hus, rfl⟩ := h
  obtain ⟨d', vs, rfl, hvs, rfl⟩ := h'
  refine ⟨.andFactor d d', ⟨.and, position⟩ :: (us ++ vs), ?_, ?_, rfl⟩
  · rw [List.cons_append, List.append_assoc]
  · rw [List.map_cons, List.map_append, hus, hvs, Derivation.symbols]

theorem not (position : Nat) (h : Phrase.factor.Derives ts e rest) :
    Phrase.factor.Derives (⟨.not, position⟩ :: ts) (.not e) rest := by
  obtain ⟨d, us, rfl, hus, rfl⟩ := h
  refine ⟨.not d, ⟨.not, position⟩ :: us, rfl, ?_, rfl⟩
  rw [List.map_cons, hus, Derivation.symbols]

theorem group (position position' : Nat)
    (h : Phrase.expression.Derives ts e (⟨.closing, position'⟩ :: rest)) :
    Phrase.factor.Derives (⟨.opening, position⟩ :: ts) e rest := by
  obtain ⟨d, us, rfl, hus, rfl⟩ := h
  refine ⟨.group d, ⟨.opening, position⟩ :: (us ++ [⟨.closing, position'⟩]), ?_, ?_, rfl⟩
  · rw [List.cons_append, List.append_assoc]
    rfl
  · rw [List.map_cons, List.map_append, hus, Derivation.symbols]
    rfl

theorem keyword (text : String) (isQuoted : Bool) (position : Nat) (rest : List Token) :
    Phrase.factor.Derives (⟨.word text isQuoted, position⟩ :: rest) (.keyword text) rest :=
  ⟨.keyword text isQuoted, [⟨.word text isQuoted, position⟩], rfl, rfl, rfl⟩

end Phrase.Derives

/-- What is left behind an expression is shorter: the parser keeps this with its result. -/
theorem length_lt_of_reading {ts rest : List Token} {e : Expr}
    {read : Except SyntaxError (Reading ts)}
    (h : read.map (fun r => (r.expr, r.rest)) = .ok (e, rest)) : rest.length < ts.length := by
  obtain ⟨reading, -, hreading⟩ := exists_of_map_eq_ok h
  obtain ⟨rfl, rfl⟩ := Prod.mk.inj hreading
  exact reading.shorter

theorem exists_of_afterClosing?_eq_some {ts rest : List Token} (h : afterClosing? ts = some rest) :
    ∃ position, ts = ⟨.closing, position⟩ :: rest := by
  unfold afterClosing? at h
  split at h
  · obtain rfl := Option.some.inj h
    exact ⟨_, rfl⟩
  · cases h

/-- How deep the reader of a phrase stands above the readers that it calls on the same tokens. -/
@[simp] def Phrase.level : Phrase → Nat
  | .expression => 2
  | .term => 1
  | _ => 0

theorem exists_cons_of_head? {ts : List Token} {s : Symbol}
    (h : (ts.map Token.symbol).head? = some s) : ∃ position rest, ts = ⟨s, position⟩ :: rest := by
  cases ts with
  | nil => cases h
  | cons token rest =>
    obtain rfl : token.symbol = s := Option.some.inj h
    exact ⟨token.position, rest, rfl⟩

/-- Further terms are none where there is no OR, and else a term and further ones behind it. -/
theorem of_read_moreTerms {ts rest : List Token} {es : List Expr}
    (h : Phrase.moreTerms.read ts = .ok (es, rest)) :
    ((ts.map Token.symbol).head? ≠ some .or ∧ es = [] ∧ rest = ts)
      ∨ ∃ position behind next mid others, ts = ⟨.or, position⟩ :: behind
        ∧ Phrase.term.read behind = .ok (next, mid) ∧ mid.length < behind.length
        ∧ Phrase.moreTerms.read mid = .ok (others, rest) ∧ es = next :: others := by
  by_cases hhead : (ts.map Token.symbol).head? = some .or
  · obtain ⟨position, behind, rfl⟩ := exists_cons_of_head? hhead
    rw [read_moreTerms_or] at h
    obtain ⟨⟨next, mid⟩, hnext, hread⟩ := exists_of_bind_eq_ok h
    obtain ⟨⟨others, rest⟩, hothers, heq⟩ := exists_of_map_eq_ok hread
    cases heq
    exact .inr ⟨position, behind, next, mid, others, rfl, hnext, length_lt_of_reading hnext,
      hothers, rfl⟩
  · rw [read_moreTerms_of_head?_ne hhead] at h
    cases h
    exact .inl ⟨hhead, rfl, rfl⟩

/-- Further factors are none where there is no AND, and else a factor and further ones behind
it. -/
theorem of_read_moreFactors {ts rest : List Token} {es : List Expr}
    (h : Phrase.moreFactors.read ts = .ok (es, rest)) :
    ((ts.map Token.symbol).head? ≠ some .and ∧ es = [] ∧ rest = ts)
      ∨ ∃ position behind next mid others, ts = ⟨.and, position⟩ :: behind
        ∧ Phrase.factor.read behind = .ok (next, mid) ∧ mid.length < behind.length
        ∧ Phrase.moreFactors.read mid = .ok (others, rest) ∧ es = next :: others := by
  by_cases hhead : (ts.map Token.symbol).head? = some .and
  · obtain ⟨position, behind, rfl⟩ := exists_cons_of_head? hhead
    rw [read_moreFactors_and] at h
    obtain ⟨⟨next, mid⟩, hnext, hread⟩ := exists_of_bind_eq_ok h
    obtain ⟨⟨others, rest⟩, hothers, heq⟩ := exists_of_map_eq_ok hread
    cases heq
    exact .inr ⟨position, behind, next, mid, others, rfl, hnext, length_lt_of_reading hnext,
      hothers, rfl⟩
  · rw [read_moreFactors_of_head?_ne hhead] at h
    cases h
    exact .inl ⟨hhead, rfl, rfl⟩

/-- **What the parser takes is derived.** By the number of tokens: each reader calls
another one on fewer tokens, or one of a lower level. -/
theorem derives_of_read : ∀ (p : Phrase) (ts : List Token) (v : p.Value) (rest : List Token),
    p.read ts = .ok (v, rest) → p.Derives ts v rest
  | .expression, ts, v, rest, h => by
    rw [read_expression] at h
    obtain ⟨first, hfirst, hread⟩ := exists_of_bind_eq_ok h
    obtain ⟨others, hothers, heq⟩ := exists_of_map_eq_ok hread
    cases heq
    -- the first call is on the same tokens at a lower level, the second one on fewer
    have hlt := length_lt_of_reading hfirst
    exact (derives_of_read .term ts first.1 first.2 hfirst).expression
      (derives_of_read .moreTerms first.2 others.1 others.2 hothers)
  | .moreTerms, ts, v, rest, h => by
    rcases of_read_moreTerms h with ⟨-, rfl, rfl⟩
      | ⟨position, behind, next, mid, others, hts, hnext, hlt, hothers, rfl⟩
    · exact Phrase.Derives.noTerm rest
    · have hlength : ts.length = behind.length + 1 := by rw [hts, List.length_cons]
      rw [hts]
      exact (derives_of_read .term behind next mid hnext).orTerm position
        (derives_of_read .moreTerms mid others rest hothers)
  | .term, ts, v, rest, h => by
    rw [read_term] at h
    obtain ⟨first, hfirst, hread⟩ := exists_of_bind_eq_ok h
    obtain ⟨others, hothers, heq⟩ := exists_of_map_eq_ok hread
    cases heq
    have hlt := length_lt_of_reading hfirst
    exact (derives_of_read .factor ts first.1 first.2 hfirst).term
      (derives_of_read .moreFactors first.2 others.1 others.2 hothers)
  | .moreFactors, ts, v, rest, h => by
    rcases of_read_moreFactors h with ⟨-, rfl, rfl⟩
      | ⟨position, behind, next, mid, others, hts, hnext, hlt, hothers, rfl⟩
    · exact Phrase.Derives.noFactor rest
    · have hlength : ts.length = behind.length + 1 := by rw [hts, List.length_cons]
      rw [hts]
      exact (derives_of_read .factor behind next mid hnext).andFactor position
        (derives_of_read .moreFactors mid others rest hothers)
  | .factor, [], v, rest, h => by
    simpa using head?_of_read_factor h
  | .factor, ⟨.word text isQuoted, position⟩ :: ts, v, rest, h => by
    rw [read_factor_word] at h
    cases h
    exact Phrase.Derives.keyword text isQuoted position ts
  | .factor, ⟨.not, position⟩ :: ts, v, rest, h => by
    rw [read_factor_not] at h
    obtain ⟨operand, hoperand, heq⟩ := exists_of_map_eq_ok h
    cases heq
    exact (derives_of_read .factor ts operand.1 operand.2 hoperand).not position
  | .factor, ⟨.opening, position⟩ :: ts, v, rest, h => by
    rw [read_factor_opening] at h
    obtain ⟨inner, hinner, hclosing⟩ := exists_of_bind_eq_ok h
    split at hclosing
    · cases hclosing
    · rename_i hafter
      cases hclosing
      obtain ⟨position', hrest⟩ := exists_of_afterClosing?_eq_some hafter
      have hderives := derives_of_read .expression ts inner.1 inner.2 hinner
      rw [hrest] at hderives
      exact hderives.group position position'
  | .factor, ⟨.and, position⟩ :: ts, v, rest, h
  | .factor, ⟨.or, position⟩ :: ts, v, rest, h
  | .factor, ⟨.closing, position⟩ :: ts, v, rest, h => by
    simpa using head?_of_read_factor h
termination_by p ts => (ts.length, p.level)

/-! ## Whole queries -/

/-- The parser accepts the tokens that are an expression, and answers what it says. -/
theorem parseTokens_eq_ok_iff {ts : List Token} {e : Expr} :
    parseTokens ts = .ok e
      ↔ ∃ d : Derivation .expression, d.symbols = ts.map Token.symbol ∧ d.value = e := by
  constructor
  · intro h
    rcases hexpression : expression ts with error | ⟨expr, rest, hshorter⟩
    · rw [parseTokens, hexpression] at h
      cases h
    · rw [parseTokens, hexpression] at h
      -- whatever is left behind the expression is an error
      rcases rest with _ | ⟨⟨symbol, position⟩, rest⟩
      · cases h
        have hread : Phrase.expression.read ts = .ok (e, []) := by
          rw [Phrase.read, hexpression]
          rfl
        obtain ⟨d, us, hts, hus, hvalue⟩ := derives_of_read .expression ts e [] hread
        exact ⟨d, by rw [hts, List.append_nil, hus], hvalue⟩
      · cases symbol <;> cases h
  · rintro ⟨d, hsymbols, rfl⟩
    have hread : Phrase.expression.read (ts ++ []) = .ok (d.value, []) :=
      d.read_append hsymbols.symm (endsBefore_nil _)
    rw [List.append_nil] at hread
    obtain ⟨reading, hreading, heq⟩ := exists_of_map_eq_ok hread
    obtain ⟨hexpr, hrest⟩ := Prod.mk.inj heq
    obtain ⟨expr, rest, hshorter⟩ := reading
    obtain rfl : rest = [] := hrest
    obtain rfl : expr = d.value := hexpr
    rw [parseTokens, hreading]

/-- An expression is not empty. -/
theorem Derivation.symbols_ne_nil (d : Derivation .expression) : d.symbols ≠ [] := by
  cases d with
  | expression first others =>
    cases first with
    | term first others' => cases first <;> simp [symbols]

/-- The parser accepts a query if it has tokens that are an expression. A blank query is
refused in front, but it has no tokens and would be refused all the same. -/
theorem parse_eq_ok_iff {query : String} {e : Expr} :
    parse query = .ok e
      ↔ ∃ ts, tokens query = .ok ts
        ∧ ∃ d : Derivation .expression, d.symbols = ts.map Token.symbol ∧ d.value = e := by
  have hparse : parse query = if Text.isAllBlank query then .error .emptyQuery
      else tokens query >>= parseTokens := by
    rw [parse]
    split <;> rfl
  rw [hparse]
  by_cases hblank : Text.isAllBlank query = true
  · rw [if_pos hblank]
    constructor
    · intro h
      cases h
    · rintro ⟨ts, hts, d, hsymbols, -⟩
      rw [tokens, scan_of_all_blank 0 (List.all_eq_true.mp hblank)] at hts
      cases hts
      exact absurd hsymbols d.symbols_ne_nil
  · rw [if_neg hblank]
    constructor
    · intro h
      obtain ⟨ts, hts, hparse⟩ := exists_of_bind_eq_ok h
      exact ⟨ts, hts, parseTokens_eq_ok_iff.mp hparse⟩
    · rintro ⟨ts, hts, hderived⟩
      rw [hts]
      exact parseTokens_eq_ok_iff.mpr hderived

/-- **The parser decides the grammar.** A query is read as an expression exactly if it
has tokens, and these are derived from the grammar by a derivation that says the
expression. There is no second derivation of the same symbols, and a query without a
derivation is refused with a syntax error. -/
theorem parse_decides_grammar (query : String) :
    (∀ e, parse query = .ok e
      ↔ ∃ ts, tokens query = .ok ts
        ∧ ∃ d : Derivation .expression, d.symbols = ts.map Token.symbol ∧ d.value = e)
    ∧ (∀ ts, tokens query = .ok ts → ∀ d₁ d₂ : Derivation .expression,
      d₁.symbols = ts.map Token.symbol → d₂.symbols = ts.map Token.symbol → d₁ = d₂)
    ∧ ((∃ error : SyntaxError, parse query = .error error)
      ↔ ∀ ts, tokens query = .ok ts →
        ∀ d : Derivation .expression, d.symbols ≠ ts.map Token.symbol) := by
  refine ⟨fun e => parse_eq_ok_iff, ?_, ?_⟩
  · intro ts _ d₁ d₂ h₁ h₂
    exact Derivation.eq_of_symbols_eq (h₁.trans h₂.symm)
  · constructor
    · rintro ⟨error, herror⟩ ts hts d hsymbols
      have hok := parse_eq_ok_iff.mpr ⟨ts, hts, d, hsymbols, rfl⟩
      rw [herror] at hok
      cases hok
    · intro hnone
      rcases hparse : parse query with error | e
      · exact ⟨error, rfl⟩
      · obtain ⟨ts, hts, d, hsymbols, -⟩ := parse_eq_ok_iff.mp hparse
        exact absurd hsymbols (hnone ts hts d)

end LogSearch.Query
