/-
Where a rejected query goes wrong.

Some symbols are viable if they are the start of an expression. The parser stops at the
first token that makes them not viable, and the position that is reported is the one of that
token. If all tokens are viable, the query ends too early. Then there is a position only if
the end comes right behind an operand, and it is that of the innermost parenthesis that is
still open; where an operand is missing there is none.

The argument has two halves, and one induction along the parser gives both (`fails_of_read`).
What has been taken up to the failure can be completed: each reader completes what its callee
leaves, by an operand that is missing or the closing of a parenthesis. And the failure does
not depend on what follows: with the same tokens up to the one at which it fails, the parser
fails again. So no expression starts with them, since the parser would accept it.
-/
import LogSearch.Proofs.Query.Grammar

set_option autoImplicit false

namespace LogSearch.Query

/-! ## Starts of expressions -/

/-- The symbols are the start of an expression. -/
def IsViable (ss : List Symbol) : Prop :=
  ∃ d : Derivation .expression, ss <+: d.symbols

/-- The symbols end right behind an operand. -/
def EndsWithOperand (ss : List Symbol) : Prop :=
  ∃ (before : List Symbol) (d : Derivation .factor), ss = before ++ d.symbols

/-- The positions of the parentheses that are open behind some tokens, the innermost first, if
those at `opened` are open in front of them. -/
def openedBy (opened : List Nat) (ts : List Token) : List Nat :=
  ts.foldl (fun opened t =>
    match t.symbol with
    | .opening => t.position :: opened
    | .closing => opened.tail
    | _ => opened) opened

/-- The position of the innermost parenthesis that is not closed. -/
def innermost? (ts : List Token) : Option Nat :=
  (openedBy [] ts).head?

theorem openedBy_append (opened : List Nat) (ts us : List Token) :
    openedBy opened (ts ++ us) = openedBy (openedBy opened ts) us :=
  List.foldl_append

theorem IsViable.of_prefix {ss ts : List Symbol} (h : IsViable ts) (hstart : ss <+: ts) :
    IsViable ss := by
  obtain ⟨d, hd⟩ := h
  exact ⟨d, hstart.trans hd⟩

theorem EndsWithOperand.append_left {ss : List Symbol} (h : EndsWithOperand ss)
    (before : List Symbol) : EndsWithOperand (before ++ ss) := by
  obtain ⟨front, d, rfl⟩ := h
  exact ⟨before ++ front, d, (List.append_assoc ..).symm⟩

/-- Whether an operand can end with the symbol. -/
def Symbol.endsOperand : Symbol → Bool
  | .word _ _ => true
  | .closing => true
  | _ => false

namespace Derivation

/-- An operand ends with a word or a closing parenthesis. -/
theorem exists_last : (d : Derivation .factor) →
    ∃ front last, d.symbols = front ++ [last] ∧ last.endsOperand = true
  | .not operand => by
    obtain ⟨front, last, hsymbols, hlast⟩ := exists_last operand
    exact ⟨.not :: front, last, by rw [symbols, hsymbols, List.cons_append], hlast⟩
  | .group inner => ⟨.opening :: inner.symbols, .closing, rfl, rfl⟩
  | .keyword text isQuoted => ⟨[], .word text isQuoted, rfl, rfl⟩

theorem endsWithOperand_moreFactors : (others : Derivation .moreFactors) →
    others.symbols = [] ∨ EndsWithOperand others.symbols
  | .noFactor => .inl rfl
  | .andFactor next others => by
    refine .inr ?_
    rw [symbols]
    rcases endsWithOperand_moreFactors others with hnone | hends
    · rw [hnone, List.append_nil]
      exact ⟨[.and], next, rfl⟩
    · exact (hends.append_left next.symbols).append_left [.and]

theorem endsWithOperand_term (d : Derivation .term) : EndsWithOperand d.symbols := by
  cases d with
  | term first others =>
    rw [symbols]
    rcases endsWithOperand_moreFactors others with hnone | hends
    · rw [hnone, List.append_nil]
      exact ⟨[], first, rfl⟩
    · exact hends.append_left first.symbols

theorem endsWithOperand_moreTerms : (others : Derivation .moreTerms) →
    others.symbols = [] ∨ EndsWithOperand others.symbols
  | .noTerm => .inl rfl
  | .orTerm next others => by
    refine .inr ?_
    rw [symbols]
    rcases endsWithOperand_moreTerms others with hnone | hends
    · rw [hnone, List.append_nil]
      exact next.endsWithOperand_term.append_left [.or]
    · exact (hends.append_left next.symbols).append_left [.or]

/-- An expression ends right behind an operand. -/
theorem endsWithOperand_expression (d : Derivation .expression) : EndsWithOperand d.symbols := by
  cases d with
  | expression first others =>
    rw [symbols]
    rcases endsWithOperand_moreTerms others with hnone | hends
    · rw [hnone, List.append_nil]
      exact first.endsWithOperand_term
    · exact hends.append_left first.symbols

/-- Behind a phrase the same parentheses are open as in front of it. -/
theorem openedBy_of_symbols {p : Phrase} (d : Derivation p) : ∀ {us : List Token},
    us.map Token.symbol = d.symbols → ∀ opened, openedBy opened us = opened := by
  induction d with
  | expression first others ihfirst ihothers | term first others ihfirst ihothers =>
    intro us hus opened
    obtain ⟨us, vs, rfl, hfirst, hothers⟩ := List.map_eq_append_iff.mp hus
    rw [openedBy_append, ihfirst hfirst, ihothers hothers]
  | noTerm | noFactor =>
    intro us hus opened
    rw [List.map_eq_nil_iff.mp hus]
    rfl
  | orTerm next others ihnext ihothers | andFactor next others ihnext ihothers =>
    intro us hus opened
    obtain ⟨⟨symbol, position⟩, us, rfl, rfl, htail⟩ := List.map_eq_cons_iff.mp hus
    obtain ⟨us, vs, rfl, hnext, hothers⟩ := List.map_eq_append_iff.mp htail
    exact (openedBy_append opened us vs).trans (by rw [ihnext hnext, ihothers hothers])
  | not operand ih =>
    intro us hus opened
    obtain ⟨⟨symbol, position⟩, us, rfl, rfl, htail⟩ := List.map_eq_cons_iff.mp hus
    exact ih htail opened
  | group inner ih =>
    intro us hus opened
    obtain ⟨⟨symbol, position⟩, us, rfl, rfl, htail⟩ := List.map_eq_cons_iff.mp hus
    obtain ⟨us, vs, rfl, hinner, hclosing⟩ := List.map_eq_append_iff.mp htail
    obtain ⟨⟨symbol, position'⟩, vs, rfl, rfl, hvs⟩ := List.map_eq_cons_iff.mp hclosing
    obtain rfl := List.map_eq_nil_iff.mp hvs
    -- the closing one takes away what the opening one has put there
    show openedBy (position :: opened) (us ++ [⟨.closing, position'⟩]) = opened
    rw [openedBy_append, ih hinner]
    rfl
  | keyword text isQuoted =>
    intro us hus opened
    obtain ⟨⟨symbol, position⟩, us, rfl, rfl, htail⟩ := List.map_eq_cons_iff.mp hus
    obtain rfl := List.map_eq_nil_iff.mp htail
    rfl

end Derivation

/-! ## Where the parser stops -/

/-- Whether a phrase ends before a list is seen at its first symbol. -/
theorem Phrase.EndsBefore.of_head? {p : Phrase} {ss ts : List Symbol} (h : p.EndsBefore ss)
    (hhead : ts.head? = ss.head?) : p.EndsBefore ts := by
  intro s hs
  rw [hhead]
  exact h s hs

/-- Behind further factors there is no AND. -/
theorem endsBefore_of_read_moreFactors (ts : List Token) {es : List Expr} {rest : List Token}
    (h : Phrase.moreFactors.read ts = .ok (es, rest)) :
    Phrase.moreFactors.EndsBefore (rest.map Token.symbol) := by
  rcases of_read_moreFactors h with ⟨hhead, -, rfl⟩
    | ⟨position, behind, next, mid, others, hts, -, hlt, hothers, -⟩
  · intro s hs
    obtain rfl : s = .and := List.mem_singleton.mp hs
    exact hhead
  · have hlength : ts.length = behind.length + 1 := by rw [hts, List.length_cons]
    exact endsBefore_of_read_moreFactors mid hothers
termination_by ts.length

/-- Behind a term there is no AND. -/
theorem endsBefore_of_read_term {ts : List Token} {e : Expr} {rest : List Token}
    (h : Phrase.term.read ts = .ok (e, rest)) :
    Phrase.term.EndsBefore (rest.map Token.symbol) := by
  rw [read_term] at h
  obtain ⟨first, -, hread⟩ := exists_of_bind_eq_ok h
  obtain ⟨others, hothers, heq⟩ := exists_of_map_eq_ok hread
  cases heq
  exact endsBefore_of_read_moreFactors first.2 hothers

/-- Behind further terms there is no operator, if there is no AND in front of them. -/
theorem endsBefore_of_read_moreTerms (ts : List Token) {es : List Expr} {rest : List Token}
    (hends : Phrase.term.EndsBefore (ts.map Token.symbol))
    (h : Phrase.moreTerms.read ts = .ok (es, rest)) :
    Phrase.moreTerms.EndsBefore (rest.map Token.symbol) := by
  rcases of_read_moreTerms h with ⟨hhead, -, rfl⟩
    | ⟨position, behind, next, mid, others, hts, hnext, hlt, hothers, -⟩
  · intro s hs
    rcases List.mem_cons.mp hs with rfl | hs
    · exact hends .and (List.mem_cons_self ..)
    · obtain rfl : s = .or := List.mem_singleton.mp hs
      exact hhead
  · have hlength : ts.length = behind.length + 1 := by rw [hts, List.length_cons]
    exact endsBefore_of_read_moreTerms mid (endsBefore_of_read_term hnext) hothers
termination_by ts.length

/-- Behind an expression there is no operator. -/
theorem endsBefore_of_read_expression {ts : List Token} {e : Expr} {rest : List Token}
    (h : Phrase.expression.read ts = .ok (e, rest)) :
    Phrase.expression.EndsBefore (rest.map Token.symbol) := by
  rw [read_expression] at h
  obtain ⟨first, hfirst, hread⟩ := exists_of_bind_eq_ok h
  obtain ⟨others, hothers, heq⟩ := exists_of_map_eq_ok hread
  cases heq
  exact endsBefore_of_read_moreTerms first.2 (endsBefore_of_read_term hfirst) hothers

/-! ## How a reader fails -/

/-- Some phrase starts with the tokens. -/
def Phrase.Admits (p : Phrase) (us : List Token) : Prop :=
  ∃ d : Derivation p, us.map Token.symbol <+: d.symbols

/-- The ways in which the reader of a phrase fails on some tokens. -/
inductive Phrase.Fails (p : Phrase) : List Token → SyntaxError → Prop where
  /-- A token cannot stand behind those in front of it, whatever follows. -/
  | token (us : List Token) {t : Token} {rest : List Token} {e : SyntaxError}
      (hadmits : p.Admits us) (hposition : e.position = some t.position)
      (hstuck : ∀ rest', ∃ e', p.read (us ++ t :: rest') = .error e') :
      p.Fails (us ++ t :: rest) e
  /-- The tokens end where an operand is missing. -/
  | operand {ts : List Token} (hadmits : p.Admits ts)
      (hlast : ∀ t ∈ ts.getLast?, t.symbol.endsOperand = false) :
      p.Fails ts (.missingOperand none)
  /-- The tokens end behind an operand, where a parenthesis is open. -/
  | unclosed {ts : List Token} {openedAt : Nat} (hadmits : p.Admits ts)
      (hends : EndsWithOperand (ts.map Token.symbol))
      (hopen : ∀ opened, (openedBy opened ts).head? = some openedAt) :
      p.Fails ts (.unclosed openedAt none)

section Lifting

variable {p q : Phrase} {front mid : List Token} {e : SyntaxError}

/-- What comes in front of a phrase and what comes behind it make up a larger one. -/
theorem Phrase.Admits.lift (extend : Derivation q → Derivation p)
    (hextend : ∀ d, front.map Token.symbol ++ d.symbols <+: (extend d).symbols)
    (h : q.Admits mid) : p.Admits (front ++ mid) := by
  obtain ⟨d, hd⟩ := h
  refine ⟨extend d, ?_⟩
  rw [List.map_append]
  exact ((List.prefix_append_right_inj _).mpr hd).trans (hextend d)

/-- **A failure passes to the caller.** If the reader of `p` takes `front` and then calls the
one of `q`, it fails as this one does. The token at which the caller is stuck may be the
first one that its callee sees, so the call is made for all that start alike. -/
theorem Phrase.Fails.lift (front : List Token) (h : q.Fails mid e)
    (extend : Derivation q → Derivation p)
    (hextend : ∀ d, front.map Token.symbol ++ d.symbols <+: (extend d).symbols)
    (hcall : ∀ vs e', vs.head? = mid.head? → q.read vs = .error e' →
      ∃ e'', p.read (front ++ vs) = .error e'')
    (hlast : mid = [] → ∀ t ∈ front.getLast?, t.symbol.endsOperand = false) :
    p.Fails (front ++ mid) e := by
  cases h with
  | @token us t rest _ hadmits hposition hstuck =>
    rw [← List.append_assoc]
    -- only what comes behind `t` changes, so the callee still sees the same first token
    refine .token _ (hadmits.lift extend hextend) hposition fun rest' => ?_
    obtain ⟨e', he'⟩ := hstuck rest'
    rw [List.append_assoc]
    refine hcall _ e' ?_ he'
    cases us <;> rfl
  | operand hadmits hlast' =>
    refine .operand (hadmits.lift extend hextend) ?_
    -- the last token is one of the callee, unless it saw none
    rcases List.eq_nil_or_concat mid with hnil | ⟨before, last, hmid⟩
    · rw [hnil, List.append_nil]
      exact hlast hnil
    · rw [hmid, List.concat_eq_append, List.getLast?_concat] at hlast'
      rwa [hmid, List.concat_eq_append, ← List.append_assoc, List.getLast?_concat]
  | unclosed hadmits hends hopen =>
    refine .unclosed (hadmits.lift extend hextend) ?_ fun opened => ?_
    · rw [List.map_append]
      exact hends.append_left _
    · rw [openedBy_append]
      exact hopen _

/-- A phrase made of two others, with the tokens `start` in front of them, fails as the first one
or behind it as the second one. The second one is a repetition: it fails only behind its
operator, which the first one does not take. -/
theorem Phrase.Fails.sequence {r : Phrase} (start : List Token) {ts : List Token}
    {operator : Symbol} {say : q.Value → r.Value → p.Value}
    (make : Derivation q → Derivation r → Derivation p)
    (hmake : ∀ d d', (make d d').symbols = start.map Token.symbol ++ (d.symbols ++ d'.symbols))
    (hread : ∀ vs, p.read (start ++ vs) = q.read vs >>= fun first =>
      (r.read first.2).map fun others => (say first.1 others.1, others.2))
    (hstart : ∀ t ∈ start.getLast?, t.symbol.endsOperand = false) (none : Derivation r)
    (hnone : ∀ vs, (vs.map Token.symbol).head? ≠ some operator → ∃ b, r.read vs = .ok b)
    (hoperator : operator ∉ q.prolongers)
    (hfirst : ∀ e, q.read ts = .error e → q.Fails ts e)
    (hothers : ∀ v rest, q.read ts = .ok (v, rest) → ∀ e, r.read rest = .error e → r.Fails rest e)
    (h : p.read (start ++ ts) = .error e) : p.Fails (start ++ ts) e := by
  rw [hread, bind_eq_error_iff] at h
  rcases h with h | ⟨⟨v, rest⟩, hv, h⟩
  · refine (hfirst e h).lift start (make · none) (fun d => ?_) (fun vs e' _ hvs => ?_)
      fun _ => hstart
    · rw [hmake, ← List.append_assoc]
      exact List.prefix_append ..
    · exact ⟨e', by rw [hread, bind_eq_error_iff]; exact .inl hvs⟩
  · rw [map_eq_error_iff] at h
    -- without its operator a repetition does not fail
    have hhead : (rest.map Token.symbol).head? = some operator := by
      refine Decidable.byContradiction fun hne => ?_
      obtain ⟨b, hb⟩ := hnone rest hne
      cases h.symm.trans hb
    obtain ⟨d, us, hts, hus, -⟩ := derives_of_read q ts v rest hv
    rw [hts, ← List.append_assoc]
    refine (hothers v rest hv e h).lift (start ++ us) (make d) (fun d' => ?_)
      (fun vs e' hvs he' => ?_) ?_
    · have hsymbols : (start ++ us).map Token.symbol ++ d'.symbols = (make d d').symbols := by
        rw [hmake, List.map_append, hus, List.append_assoc]
      exact hsymbols ▸ List.prefix_rfl
    · -- so what the first phrase took, it takes of anything that starts with this operator
      have hends : q.EndsBefore (vs.map Token.symbol) := by
        intro s hs hhead'
        rw [List.head?_map, hvs, ← List.head?_map, hhead] at hhead'
        exact hoperator (Option.some.inj hhead' ▸ hs)
      refine ⟨e', ?_⟩
      rw [List.append_assoc, hread, d.read_append hus hends]
      exact map_eq_error_iff.mpr he'
    · rintro rfl
      cases hhead

end Lifting

/-- No operand starts with an operator of two operands or with a closing parenthesis. -/
theorem read_factor_misplaced {t : Token} (h : t.symbol ∈ [.and, .or, .closing])
    (ts : List Token) : Phrase.factor.read (t :: ts) = .error (.missingOperand (some t)) := by
  obtain ⟨symbol, position⟩ := t
  simp only [List.mem_cons, List.not_mem_nil, or_false] at h
  rcases h with rfl | rfl | rfl <;> simp [Phrase.read, factor, Except.map]

/-- The reader of factors fails there in one way, whatever follows. -/
theorem fails_misplaced {t : Token} (h : t.symbol ∈ [.and, .or, .closing]) {ts : List Token}
    {e : SyntaxError} (hread : Phrase.factor.read (t :: ts) = .error e) :
    Phrase.factor.Fails (t :: ts) e := by
  rw [read_factor_misplaced h] at hread
  cases hread
  exact .token [] ⟨.keyword "" false, List.nil_prefix⟩ rfl fun rest' =>
    ⟨_, read_factor_misplaced h rest'⟩

theorem afterClosing?_eq_none_iff {ts : List Token} :
    afterClosing? ts = none ↔ (ts.map Token.symbol).head? ≠ some .closing := by
  rcases ts with _ | ⟨⟨symbol, position⟩, ts⟩
  · simp [afterClosing?]
  · cases symbol <;> simp [afterClosing?]

/-- An expression in parentheses fails behind its last operand. -/
theorem fails_unclosed {position : Nat} {ts rest : List Token} {v : Expr}
    (hread : Phrase.expression.read ts = .ok (v, rest)) (hclosing : afterClosing? rest = none) :
    Phrase.factor.Fails (⟨.opening, position⟩ :: ts) (.unclosed position rest.head?) := by
  obtain ⟨d, us, rfl, hus, -⟩ := derives_of_read .expression ts v rest hread
  have hadmits : Phrase.factor.Admits (⟨.opening, position⟩ :: us) :=
    ⟨.group d, [.closing], by rw [List.map_cons, hus]; rfl⟩
  rcases rest with _ | ⟨t, rest⟩
  · rw [List.append_nil]
    refine .unclosed hadmits ?_ fun opened => ?_
    · rw [List.map_cons, hus]
      exact d.endsWithOperand_expression.append_left [.opening]
    · -- the expression has closed what it opened, and the parenthesis in front of it is open
      show (openedBy (position :: opened) us).head? = some position
      rw [d.openedBy_of_symbols hus]
      rfl
  · refine .token _ hadmits rfl fun rest' => ⟨.unclosed position (some t), ?_⟩
    have hends : Phrase.expression.EndsBefore ((t :: rest').map Token.symbol) :=
      (endsBefore_of_read_expression hread).of_head? rfl
    have hclosing' : afterClosing? (t :: rest') = none := by
      rw [afterClosing?_eq_none_iff] at hclosing ⊢
      exact hclosing
    refine (read_factor_opening position _).trans (bind_eq_error_iff.mpr
      (.inr ⟨_, d.read_append hus hends, ?_⟩))
    dsimp only
    rw [hclosing']
    rfl

/-- **Every failure of the parser is one of the three.** By the number of tokens and below that
by the level of the phrase, as the readers call each other. -/
theorem fails_of_read : ∀ (p : Phrase) (ts : List Token) (e : SyntaxError),
    p.read ts = .error e → p.Fails ts e
  -- as in `derives_of_read`, the first call is on the same tokens at a lower level or on fewer
  -- tokens, and the second one is on what the first has left
  | .expression, ts, e, h =>
    .sequence [] .expression (fun _ _ => rfl) read_expression (by simp) .noTerm
      (fun vs hvs => ⟨_, read_moreTerms_of_head?_ne hvs⟩) (by simp [Phrase.prolongers])
      (fun e he => fails_of_read .term ts e he)
      (fun v rest hv e he =>
        have := length_lt_of_reading hv
        fails_of_read .moreTerms rest e he) h
  | .moreTerms, ts, e, h => by
    by_cases hhead : (ts.map Token.symbol).head? = some .or
    · obtain ⟨position, behind, hts⟩ := exists_cons_of_head? hhead
      have hlength : ts.length = behind.length + 1 := by rw [hts, List.length_cons]
      rw [hts] at h ⊢
      exact .sequence [⟨.or, position⟩] .orTerm (fun _ _ => rfl)
        (read_moreTerms_or position) (by simp [Symbol.endsOperand]) .noTerm
        (fun vs hvs => ⟨_, read_moreTerms_of_head?_ne hvs⟩) (by simp [Phrase.prolongers])
        (fun e he => fails_of_read .term behind e he)
        (fun v rest hv e he =>
          have := length_lt_of_reading hv
          fails_of_read .moreTerms rest e he) h
    · rw [read_moreTerms_of_head?_ne hhead] at h
      cases h
  | .term, ts, e, h =>
    .sequence [] .term (fun _ _ => rfl) read_term (by simp) .noFactor
      (fun vs hvs => ⟨_, read_moreFactors_of_head?_ne hvs⟩) (by simp [Phrase.prolongers])
      (fun e he => fails_of_read .factor ts e he)
      (fun v rest hv e he =>
        have := length_lt_of_reading hv
        fails_of_read .moreFactors rest e he) h
  | .moreFactors, ts, e, h => by
    by_cases hhead : (ts.map Token.symbol).head? = some .and
    · obtain ⟨position, behind, hts⟩ := exists_cons_of_head? hhead
      have hlength : ts.length = behind.length + 1 := by rw [hts, List.length_cons]
      rw [hts] at h ⊢
      exact .sequence [⟨.and, position⟩] .andFactor (fun _ _ => rfl)
        (read_moreFactors_and position) (by simp [Symbol.endsOperand]) .noFactor
        (fun vs hvs => ⟨_, read_moreFactors_of_head?_ne hvs⟩) (by simp [Phrase.prolongers])
        (fun e he => fails_of_read .factor behind e he)
        (fun v rest hv e he =>
          have := length_lt_of_reading hv
          fails_of_read .moreFactors rest e he) h
    · rw [read_moreFactors_of_head?_ne hhead] at h
      cases h
  | .factor, [], e, h => by
    simp only [Phrase.read, factor, Except.map, List.head?_nil, Except.error.injEq] at h
    rw [← h]
    exact .operand ⟨.keyword "" false, List.nil_prefix⟩ (by simp)
  | .factor, ⟨.word text isQuoted, position⟩ :: ts, e, h => by
    rw [read_factor_word] at h
    cases h
  | .factor, ⟨.not, position⟩ :: ts, e, h => by
    rw [read_factor_not, map_eq_error_iff] at h
    refine (fails_of_read .factor ts e h).lift [⟨.not, position⟩] .not
      (fun _ => List.prefix_rfl) (fun vs e' _ he' => ⟨e', ?_⟩) (by simp [Symbol.endsOperand])
    exact (read_factor_not position vs).trans (map_eq_error_iff.mpr he')
  | .factor, ⟨.opening, position⟩ :: ts, e, h => by
    rw [read_factor_opening, bind_eq_error_iff] at h
    rcases h with h | ⟨⟨v, rest⟩, hv, h⟩
    · refine (fails_of_read .expression ts e h).lift [⟨.opening, position⟩] .group
        (fun d => ⟨[.closing], rfl⟩) (fun vs e' _ he' => ⟨e', ?_⟩) (by simp [Symbol.endsOperand])
      exact (read_factor_opening position vs).trans (bind_eq_error_iff.mpr (.inl he'))
    · split at h
      · rename_i hclosing
        cases h
        exact fails_unclosed hv hclosing
      · cases h
  | .factor, ⟨.and, position⟩ :: ts, e, h
  | .factor, ⟨.or, position⟩ :: ts, e, h
  | .factor, ⟨.closing, position⟩ :: ts, e, h => fails_misplaced (by simp) h
termination_by p ts => (ts.length, p.level)

/-! ## Whole queries -/

/-- The ways in which the parser fails on the tokens of a whole query. -/
inductive Rejects : List Token → SyntaxError → Prop where
  /-- The tokens in front of one are viable, and with it they are not. -/
  | token {us : List Token} {t : Token} {rest : List Token} {e : SyntaxError}
      (hviable : IsViable (us.map Token.symbol))
      (hstuck : ¬IsViable ((us ++ [t]).map Token.symbol))
      (hposition : e.position = some t.position) :
      Rejects (us ++ t :: rest) e
  /-- All tokens are viable. -/
  | ending {ts : List Token} {e : SyntaxError} (hviable : IsViable (ts.map Token.symbol))
      (hposition : ∀ p, e.position = some p
        ↔ EndsWithOperand (ts.map Token.symbol) ∧ innermost? ts = some p) :
      Rejects ts e

/-- Tokens at which the parser is stuck whatever follows are not viable: it would accept the
expression that they start. -/
theorem not_isViable_of_stuck {us : List Token}
    (hstuck : ∀ rest, ∃ e, parseTokens (us ++ rest) = .error e) :
    ¬IsViable (us.map Token.symbol) := by
  rintro ⟨d, behind, hd⟩
  -- the positions of the tokens that complete the expression do not matter
  obtain ⟨e, he⟩ := hstuck (behind.map fun s => ⟨s, 0⟩)
  have hok : parseTokens (us ++ behind.map fun s => ⟨s, 0⟩) = .ok d.value := by
    refine parseTokens_eq_ok_iff.mpr ⟨d, ?_, rfl⟩
    rw [← hd, List.map_append, List.map_map]
    exact congrArg _ (List.map_id behind).symm
  cases he.symm.trans hok

/-- What the parser makes of an expression that is read off the front of the tokens. -/
theorem parseTokens_eq (ts : List Token) :
    parseTokens ts = Phrase.expression.read ts >>= fun r =>
      match r.2 with
      | [] => .ok r.1
      | ⟨.closing, position⟩ :: _ => .error (.unopened position)
      | t :: _ => .error (.missingOperator t) := by
  rw [parseTokens, Phrase.read]
  rcases expression ts with e | ⟨v, rest, h⟩
  · rfl
  · rcases rest with _ | ⟨⟨symbol, position⟩, rest⟩
    · rfl
    · cases symbol <;> rfl

/-- A token that is left behind an expression is where the parser fails. -/
theorem exists_of_leftover {ts rest : List Token} {t : Token} {v : Expr}
    (h : Phrase.expression.read ts = .ok (v, t :: rest)) :
    ∃ e, parseTokens ts = .error e ∧ e.position = some t.position := by
  obtain ⟨symbol, position⟩ := t
  rw [parseTokens_eq, h]
  cases symbol <;> exact ⟨_, rfl, rfl⟩

/-- Behind an operand, the last token can end one. -/
theorem EndsWithOperand.exists_getLast? {ts : List Token}
    (h : EndsWithOperand (ts.map Token.symbol)) :
    ∃ t ∈ ts.getLast?, t.symbol.endsOperand = true := by
  obtain ⟨before, d, hsymbols⟩ := h
  obtain ⟨front, last, hd, hlast⟩ := d.exists_last
  rw [hd, ← List.append_assoc] at hsymbols
  obtain ⟨us, vs, rfl, -, hvs⟩ := List.map_eq_append_iff.mp hsymbols
  obtain ⟨t, rfl, rfl⟩ := List.map_eq_singleton_iff.mp hvs
  exact ⟨t, List.getLast?_concat .., hlast⟩

/-- Without an operand at the end there is no position. -/
theorem Rejects.of_position_eq_none {ts : List Token} {e : SyntaxError}
    (hviable : IsViable (ts.map Token.symbol)) (hposition : e.position = none)
    (hlast : ∀ t ∈ ts.getLast?, t.symbol.endsOperand = false) : Rejects ts e := by
  refine .ending hviable fun p => ?_
  rw [hposition]
  constructor
  · intro h
    cases h
  · rintro ⟨hends, -⟩
    obtain ⟨t, ht, hends⟩ := hends.exists_getLast?
    rw [hlast t ht] at hends
    cases hends

theorem rejects_of_parseTokens {ts : List Token} {e : SyntaxError}
    (h : parseTokens ts = .error e) : Rejects ts e := by
  rcases hread : Phrase.expression.read ts with e' | ⟨v, rest⟩
  · rw [parseTokens_eq, hread] at h
    cases h
    cases fails_of_read .expression ts e hread with
    | token us hadmits hposition hstuck =>
      refine .token hadmits (not_isViable_of_stuck fun rest' => ?_) hposition
      obtain ⟨e', he'⟩ := hstuck rest'
      exact ⟨e', by rw [List.append_assoc, List.singleton_append, parseTokens_eq, he']; rfl⟩
    | operand hadmits hlast => exact .of_position_eq_none hadmits rfl hlast
    | @unclosed _ openedAt hadmits hends hopen =>
      refine .ending hadmits fun p => ?_
      rw [innermost?, hopen]
      exact (and_iff_right hends).symm
  · rcases rest with _ | ⟨t, rest⟩
    · rw [parseTokens_eq, hread] at h
      cases h
    · obtain ⟨e', he', hposition⟩ := exists_of_leftover hread
      cases h.symm.trans he'
      -- behind the expression the parser is stuck at the token, whatever comes after it
      have hends := endsBefore_of_read_expression hread
      obtain ⟨d, us, rfl, hus, -⟩ := derives_of_read .expression ts v (t :: rest) hread
      refine .token ⟨d, hus ▸ List.prefix_rfl⟩ (not_isViable_of_stuck fun rest' => ?_) hposition
      have hread' : Phrase.expression.read (us ++ t :: rest') = .ok (d.value, t :: rest') :=
        d.read_append hus (hends.of_head? rfl)
      obtain ⟨e'', he'', -⟩ := exists_of_leftover hread'
      exact ⟨e'', by rw [List.append_assoc, List.singleton_append, he'']⟩

/-- A blank query, which is refused in front, has no tokens. -/
theorem rejects_of_parse {query : String} {ts : List Token} {e : SyntaxError}
    (htokens : tokens query = .ok ts) (hparse : parse query = .error e) : Rejects ts e := by
  rw [parse] at hparse
  split at hparse
  · rename_i hblank
    cases hparse
    rw [tokens, scan_of_all_blank 0 (List.all_eq_true.mp hblank)] at htokens
    cases htokens
    exact .of_position_eq_none ⟨.expression (.term (.keyword "" false) .noFactor) .noTerm,
      List.nil_prefix⟩ rfl (by simp)
  · rw [htokens] at hparse
    exact rejects_of_parseTokens hparse

/-- **The position of a syntax error is that of the first token with which the query can no
longer be completed.** If no token is such, the query ends too early; then the position is that
of the innermost open parenthesis if the end comes right behind an operand, and else there is
none. -/
theorem position_of_rejected {query : String} {ts : List Token} {e : SyntaxError}
    (htokens : tokens query = .ok ts) (hparse : parse query = .error e) :
    (∀ i, ∀ hi : i < ts.length,
      (∀ j < i, IsViable ((ts.take (j + 1)).map Token.symbol)) →
      ¬IsViable ((ts.take (i + 1)).map Token.symbol) → e.position = some ts[i].position)
    ∧ ((∀ i < ts.length, IsViable ((ts.take (i + 1)).map Token.symbol)) →
      ∀ p, e.position = some p
        ↔ EndsWithOperand (ts.map Token.symbol) ∧ innermost? ts = some p) := by
  cases rejects_of_parse htokens hparse with
  | @token us t rest _ hviable hstuck hposition =>
    have htake : (us ++ t :: rest).take (us.length + 1) = us ++ [t] := by
      rw [List.take_length_add_append]
      rfl
    refine ⟨fun i hi hbefore hi' => ?_, fun hall => ?_⟩
    · -- below `us.length` the tokens are viable, and beyond it `hbefore` is about `us.length`
      rcases Nat.lt_trichotomy i us.length with hlt | rfl | hgt
      · refine absurd (hviable.of_prefix ?_) hi'
        rw [List.take_append_of_le_length hlt]
        exact (List.take_prefix ..).map _
      · rw [List.getElem_append_right (Nat.le_refl _)]
        simpa using hposition
      · exact absurd (htake ▸ hbefore us.length hgt) hstuck
    · exact absurd (htake ▸ hall us.length (by simp)) hstuck
  | ending hviable hposition =>
    refine ⟨fun i hi _ hi' => absurd (hviable.of_prefix ?_) hi', fun _ => hposition⟩
    exact (List.take_prefix ..).map _

/-- A query that ends in an open parenthesis, and one in which a word follows another there. -/
theorem position_of_rejected_parenthesis :
    (tokens "(a" = .ok [⟨.opening, 0⟩, ⟨.word "a" false, 1⟩]
      ∧ parse "(a" = .error (.unclosed 0 none)
      ∧ EndsWithOperand [.opening, .word "a" false]
      ∧ innermost? [⟨.opening, 0⟩, ⟨.word "a" false, 1⟩] = some 0)
    ∧ tokens "(a b" = .ok [⟨.opening, 0⟩, ⟨.word "a" false, 1⟩, ⟨.word "b" false, 3⟩]
      ∧ ∃ e, parse "(a b" = .error e ∧ e.position = some 3 := by
  have hviable : ∀ (rest : List Token), ∀ i < 2, IsViable
      (((⟨.opening, 0⟩ :: ⟨.word "a" false, 1⟩ :: rest).take (i + 1)).map Token.symbol) := by
    have hboth : IsViable [.opening, .word "a" false] :=
      ⟨.expression (.term (.group (.expression (.term (.keyword "a" false) .noFactor) .noTerm))
        .noFactor) .noTerm, [.closing], rfl⟩
    intro rest i hi
    exact hboth.of_prefix ((List.take_prefix_take_left (Nat.succ_le_of_lt hi)).map _)
  constructor
  · have htokens : tokens "(a" = .ok [⟨.opening, 0⟩, ⟨.word "a" false, 1⟩] := by
      show scan 0 ['(', 'a'] = _
      rw [scan_opening, scan_word 1 (by decide) (by decide)]
      show ((scan 2 []).map _).map _ = _
      rw [scan_nil]
      rfl
    have hparse : parse "(a" = .error (.unclosed 0 none) := by
      rw [parse, if_neg (by decide), htokens]
      show parseTokens _ = _
      simp [parseTokens, expression, term, factor, moreFactors, moreTerms, afterClosing?]
    exact ⟨htokens, hparse, ((position_of_rejected htokens hparse).2 (hviable []) 0).mp rfl⟩
  · have htokens : tokens "(a b"
        = .ok [⟨.opening, 0⟩, ⟨.word "a" false, 1⟩, ⟨.word "b" false, 3⟩] := by
      show scan 0 ['(', 'a', ' ', 'b'] = _
      rw [scan_opening, scan_word 1 (by decide) (by decide)]
      show ((scan 2 [' ', 'b']).map _).map _ = _
      rw [scan_blank 2 (by decide), scan_word 3 (by decide) (by decide)]
      show (((scan 4 []).map _).map _).map _ = _
      rw [scan_nil]
      rfl
    have hstuck : ∀ rest, ∃ e, parseTokens ([⟨.opening, 0⟩, ⟨.word "a" false, 1⟩,
        ⟨.word "b" false, 3⟩] ++ rest) = .error e := fun rest =>
      ⟨.unclosed 0 (some ⟨.word "b" false, 3⟩), by
        simp [parseTokens, expression, term, factor, moreFactors, moreTerms, afterClosing?]⟩
    obtain ⟨e, he⟩ : ∃ e, parse "(a b" = .error e := by
      rw [parse, if_neg (by decide), htokens]
      exact hstuck []
    refine ⟨htokens, e, he, (position_of_rejected htokens he).1 2 (by decide) (hviable _) ?_⟩
    exact not_isViable_of_stuck hstuck

end LogSearch.Query
