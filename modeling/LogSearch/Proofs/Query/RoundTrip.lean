/-
Reading an expression as it is written.

A written expression is read as the flattened one. Both sides go through derivations: a
written keyword, negation or parenthesis is a factor of the grammar, a written
conjunction is a term whose factors are what its operands contribute, and a written
disjunction is an expression made up of terms in the same way. `IsFactor`, `IsTerm` and
`IsExpression` say this of a text, and each has a rule for every way in which such a
text is put together. Parentheses stand where an operand binds weaker, so an operand
without them may be a term itself. Its factors then continue those around it, which is
why the text is read as flattened.

Nothing depends on which characters a keyword holds, as long as there are some and none
of them is a quote. Operator words, parentheses, blanks and line feeds are read back as
they are.
-/
import LogSearch.Proofs.Query.Flattening
import LogSearch.Proofs.Query.Grammar
import LogSearch.Proofs.Query.Spelling

set_option autoImplicit false

namespace LogSearch.Query

/-! ## Derivations one after the other -/

namespace Derivation

/-- What the factors of a term say. -/
def factors : Derivation .term → List Expr
  | term first others => first.value :: others.value

/-- What the terms of an expression say. -/
def terms : Derivation .expression → List Expr
  | expression first others => first.value :: others.value

theorem value_eq_join_factors (d : Derivation .term) : d.value = Expr.join .all d.factors := by
  cases d with
  | term first others => rw [value, factors, join_cons]

theorem value_eq_join_terms (d : Derivation .expression) : d.value = Expr.join .any d.terms := by
  cases d with
  | expression first others => rw [value, terms, join_cons]

/-- Further factors go on with the factors of a term behind an AND. -/
theorem exists_moreFactors : ∀ (others : Derivation .moreFactors) (t : Derivation .term),
    ∃ d : Derivation .moreFactors, d.symbols = others.symbols ++ .and :: t.symbols
      ∧ d.value = (others.value ++ t.factors : List Expr)
  | .noFactor, .term first others => ⟨.andFactor first others, rfl, rfl⟩
  | .andFactor next others, t => by
    obtain ⟨d, hsymbols, hvalue⟩ := exists_moreFactors others t
    refine ⟨.andFactor next d, ?_, ?_⟩
    · rw [symbols, symbols, hsymbols, List.cons_append, List.append_assoc]
    · rw [value, value, hvalue, List.cons_append]

/-- Two terms with an AND between them are one. -/
theorem exists_and (t u : Derivation .term) : ∃ d : Derivation .term,
    d.symbols = t.symbols ++ .and :: u.symbols ∧ d.factors = t.factors ++ u.factors := by
  cases t with
  | term first others =>
    obtain ⟨d, hsymbols, hvalue⟩ := exists_moreFactors others u
    refine ⟨.term first d, ?_, ?_⟩
    · rw [symbols, symbols, hsymbols, List.append_assoc]
    · rw [factors, factors, hvalue, List.cons_append]

/-- Further terms go on with the terms of an expression behind an OR. -/
theorem exists_moreTerms : ∀ (others : Derivation .moreTerms) (x : Derivation .expression),
    ∃ d : Derivation .moreTerms, d.symbols = others.symbols ++ .or :: x.symbols
      ∧ d.value = (others.value ++ x.terms : List Expr)
  | .noTerm, .expression first others => ⟨.orTerm first others, rfl, rfl⟩
  | .orTerm next others, x => by
    obtain ⟨d, hsymbols, hvalue⟩ := exists_moreTerms others x
    refine ⟨.orTerm next d, ?_, ?_⟩
    · rw [symbols, symbols, hsymbols, List.cons_append, List.append_assoc]
    · rw [value, value, hvalue, List.cons_append]

/-- Two expressions with an OR between them are one. -/
theorem exists_or (x y : Derivation .expression) : ∃ d : Derivation .expression,
    d.symbols = x.symbols ++ .or :: y.symbols ∧ d.terms = x.terms ++ y.terms := by
  cases x with
  | expression first others =>
    obtain ⟨d, hsymbols, hvalue⟩ := exists_moreTerms others y
    refine ⟨.expression first d, ?_, ?_⟩
    · rw [symbols, symbols, hsymbols, List.append_assoc]
    · rw [terms, terms, hvalue, List.cons_append]

end Derivation

/-! ## Texts of phrases -/

/-- The text is a factor that says `e`. -/
def IsFactor (text : String) (e : Expr) : Prop :=
  ∃ d : Derivation .factor, Spells text.toList d.symbols ∧ d.value = e

/-- The text is a term with factors that say `es`. -/
def IsTerm (text : String) (es : List Expr) : Prop :=
  ∃ d : Derivation .term, Spells text.toList d.symbols ∧ d.factors = es

/-- The text is an expression with terms that say `es`. -/
def IsExpression (text : String) (es : List Expr) : Prop :=
  ∃ d : Derivation .expression, Spells text.toList d.symbols ∧ d.terms = es

variable {s t : String} {e : Expr} {es fs : List Expr}

theorem isFactor_quoted {text : String} (hne : text ≠ "") (hquote : '"' ∉ text.toList) :
    IsFactor ("\"" ++ text ++ "\"") (.keyword text) :=
  ⟨.keyword text true, spells_quoted hne hquote, rfl⟩

theorem IsFactor.not (h : IsFactor t e) : IsFactor ("NOT " ++ t) (.not e) := by
  obtain ⟨d, hspells, rfl⟩ := h
  refine ⟨.not d, ?_, rfl⟩
  rw [String.toList_append]
  exact spells_not.append hspells

theorem IsExpression.group (h : IsExpression t es) :
    IsFactor ("(" ++ t ++ ")") (.join .any es) := by
  obtain ⟨d, hspells, rfl⟩ := h
  refine ⟨.group d, ?_, d.value_eq_join_terms⟩
  rw [String.toList_append, String.toList_append]
  exact (Spells.opening.append hspells).append Spells.closing

theorem IsFactor.term (h : IsFactor t e) : IsTerm t [e] := by
  obtain ⟨d, hspells, rfl⟩ := h
  refine ⟨.term d .noFactor, ?_, rfl⟩
  rw [Derivation.symbols, Derivation.symbols, List.append_nil]
  exact hspells

theorem IsTerm.expression (h : IsTerm t es) : IsExpression t [.join .all es] := by
  obtain ⟨d, hspells, rfl⟩ := h
  refine ⟨.expression d .noTerm, ?_, ?_⟩
  · rw [Derivation.symbols, Derivation.symbols, List.append_nil]
    exact hspells
  · rw [← d.value_eq_join_factors]
    rfl

theorem IsTerm.and (h : IsTerm s es) (h' : IsTerm t fs) :
    IsTerm (s ++ " AND " ++ t) (es ++ fs) := by
  obtain ⟨d, hspells, rfl⟩ := h
  obtain ⟨d', hspells', rfl⟩ := h'
  obtain ⟨joined, hsymbols, hfactors⟩ := d.exists_and d'
  refine ⟨joined, ?_, hfactors⟩
  rw [String.toList_append, String.toList_append, hsymbols, List.append_cons]
  exact (hspells.append spells_and).append hspells'

theorem IsExpression.or (h : IsExpression s es) (h' : IsExpression t fs) :
    IsExpression (s ++ " OR " ++ t) (es ++ fs) := by
  obtain ⟨d, hspells, rfl⟩ := h
  obtain ⟨d', hspells', rfl⟩ := h'
  obtain ⟨joined, hsymbols, hterms⟩ := d.exists_or d'
  refine ⟨joined, ?_, hterms⟩
  rw [String.toList_append, String.toList_append, hsymbols, List.append_cons]
  exact (hspells.append spells_or).append hspells'

/-- A rule for two texts with a separator between them is one for any number of texts. -/
theorem intercalate_induction {α : Type} {Is : String → List α → Prop} {separator : String}
    {write : Expr → String} {say : Expr → List α}
    (hjoin : ∀ s t es fs, Is s es → Is t fs → Is (s ++ separator ++ t) (es ++ fs)) :
    ∀ {es : List Expr}, es ≠ [] → (∀ e ∈ es, Is (write e) (say e)) →
      Is (separator.intercalate (es.map write)) (es.flatMap say)
  | [], hne, _ => absurd rfl hne
  | [e], _, h => by
    rw [List.map_singleton, String.intercalate_singleton, List.flatMap_singleton]
    exact h e (List.mem_singleton_self e)
  | e :: f :: es, _, h => by
    have hrest := intercalate_induction hjoin (List.cons_ne_nil f es)
      fun g hg => h g (List.mem_cons_of_mem _ hg)
    rw [List.map_cons, List.map_cons, String.intercalate_cons_cons, List.flatMap_cons]
    rw [List.map_cons] at hrest
    exact hjoin _ _ _ _ (h e (List.mem_cons_self ..)) hrest

theorem isTerm_intercalate {write : Expr → String} {say : Expr → List Expr} (hne : es ≠ [])
    (h : ∀ e ∈ es, IsTerm (write e) (say e)) :
    IsTerm (" AND ".intercalate (es.map write)) (es.flatMap say) :=
  intercalate_induction (fun _ _ _ _ hs ht => IsTerm.and hs ht) hne h

theorem isExpression_intercalate {write : Expr → String} {say : Expr → List Expr} (hne : es ≠ [])
    (h : ∀ e ∈ es, IsExpression (write e) (say e)) :
    IsExpression (" OR ".intercalate (es.map write)) (es.flatMap say) :=
  intercalate_induction (fun _ _ _ _ hs ht => IsExpression.or hs ht) hne h

/-! ## Written expressions -/

/-- A written expression is a phrase of every kind that it can stand for without
parentheses. -/
structure IsWritten (e : Expr) : Prop where
  factor : e.isGroup = false → IsFactor e.render e.flatten
  term : e.isAny = false → IsTerm e.render e.flatten.conjuncts
  expression : IsExpression e.render e.flatten.disjuncts

/-- A factor is a term and an expression of its own. -/
theorem IsFactor.isWritten (h : IsFactor e.render e.flatten) (hgroup : e.flatten.isGroup = false) :
    IsWritten e where
  factor _ := h
  term _ := by
    rw [Expr.conjuncts_eq_singleton (by rintro es heq; rw [heq] at hgroup; cases hgroup)]
    exact h.term
  expression := by
    rw [Expr.disjuncts_eq_singleton (by rintro es heq; rw [heq] at hgroup; cases hgroup)]
    exact h.term.expression

/-- Where a factor is needed, a group stands in parentheses. -/
theorem IsWritten.factor_parenthesized (h : IsWritten e) (hgrouped : e.Grouped) :
    IsFactor (Expr.parenthesized e.isGroup e.render) e.flatten := by
  rcases hgroup : e.isGroup with _ | _
  · exact h.factor hgroup
  · have hgroup := h.expression.group
    rw [hgrouped.flatten.join_disjuncts] at hgroup
    exact hgroup

/-- Where factors are needed, a disjunction stands in parentheses. -/
theorem IsWritten.term_parenthesized (h : IsWritten e) (hgrouped : e.Grouped) :
    IsTerm (Expr.parenthesized e.isAny e.render) e.flatten.conjuncts := by
  rcases hany : e.isAny with _ | _
  · exact h.term hany
  · have hne : ∀ es, e.flatten ≠ .all es := by
      refine Expr.flatten_ne_all ?_
      rintro es rfl
      cases hany
    have hgroup := h.expression.group
    rw [hgrouped.flatten.join_disjuncts] at hgroup
    rw [Expr.conjuncts_eq_singleton hne]
    exact hgroup.term

/-- **What is written is derived.** By the expression: each kind of expression is written
by the rule for it, with its operands in parentheses where these are needed. -/
theorem isWritten (e : Expr) (hgrouped : e.Grouped)
    (hwords : ∀ w ∈ e.words, w ≠ "" ∧ '"' ∉ w.toList) : IsWritten e := by
  induction e with
  | keyword text =>
    obtain ⟨hne, hquote⟩ := hwords text (List.mem_singleton_self text)
    have hfactor : IsFactor (Expr.keyword text).render (Expr.keyword text).flatten :=
      isFactor_quoted hne hquote
    exact hfactor.isWritten rfl
  | not e ih =>
    obtain _ | hgrouped := hgrouped
    have hoperand := (ih hgrouped hwords).factor_parenthesized hgrouped
    have hfactor : IsFactor (Expr.not e).render (Expr.not e).flatten := hoperand.not
    exact hfactor.isWritten rfl
  | all es ih =>
    obtain _ | _ | ⟨two, hgrouped⟩ := hgrouped
    rw [Expr.words, Expr.wordsOfEach_eq_flatMap] at hwords
    have hoperand : ∀ e ∈ es,
        IsTerm (Expr.parenthesized e.isAny e.render) e.flatten.conjuncts := fun e he =>
      (ih e he (hgrouped e he) fun w hw =>
        hwords w (List.mem_flatMap.mpr ⟨e, he, hw⟩)).term_parenthesized (hgrouped e he)
    have hne : es ≠ [] := by
      rintro rfl
      simp at two
    -- an operand that is a conjunction is written without parentheses: its factors come
    -- to stand among those of this one, as in the flattened expression
    have hterm : IsTerm (Expr.all es).render (Expr.all es).flatten.conjuncts := by
      rw [Expr.render, Expr.renderFactors_eq_map, Expr.flatten_all, Expr.conjuncts]
      exact isTerm_intercalate hne hoperand
    refine ⟨fun hgroup => (by cases hgroup), fun _ => hterm, ?_⟩
    have hexpression := hterm.expression
    rw [(Expr.Grouped.all two hgrouped).flatten.join_conjuncts] at hexpression
    exact hexpression
  | any es ih =>
    obtain _ | _ | _ | ⟨two, hgrouped⟩ := hgrouped
    rw [Expr.words, Expr.wordsOfEach_eq_flatMap] at hwords
    have hoperand : ∀ e ∈ es, IsExpression e.render e.flatten.disjuncts := fun e he =>
      (ih e he (hgrouped e he) fun w hw =>
        hwords w (List.mem_flatMap.mpr ⟨e, he, hw⟩)).expression
    have hne : es ≠ [] := by
      rintro rfl
      simp at two
    refine ⟨fun hgroup => (by cases hgroup), fun hany => (by cases hany), ?_⟩
    rw [Expr.render, Expr.renderTerms_eq_map, Expr.flatten_any, Expr.disjuncts]
    exact isExpression_intercalate hne hoperand

/-- What is written is read as flattened. -/
theorem parse_render_of_plain {e : Expr} (hgrouped : e.Grouped)
    (hwords : ∀ w ∈ e.words, w ≠ "" ∧ '"' ∉ w.toList) : parse e.render = .ok e.flatten := by
  obtain ⟨d, hspells, hterms⟩ := (isWritten e hgrouped hwords).expression
  obtain ⟨ts, htokens, hsymbols⟩ := hspells.tokens
  refine parse_eq_ok_iff.mpr ⟨ts, htokens, d, hsymbols.symm, ?_⟩
  rw [d.value_eq_join_terms, hterms, hgrouped.flatten.join_disjuncts]

/-- **Round trip.** An expression whose keywords are not empty and hold no quote, and whose
groups have two operands or more, is read back flattened. So it is read back as it was
exactly if AND and OR alternate in it. -/
theorem parse_render (e : Expr) (hgrouped : e.Grouped)
    (hwords : ∀ w ∈ e.words, w ≠ "" ∧ '"' ∉ w.toList) :
    parse e.render = .ok e.flatten ∧ (parse e.render = .ok e ↔ e.Alternates) := by
  have hread := parse_render_of_plain hgrouped hwords
  refine ⟨hread, ?_⟩
  rw [hread, ← Expr.flatten_eq_self_iff]
  exact ⟨Except.ok.inj, congrArg Except.ok⟩

/-- A conjunction within a conjunction, with keywords that look like something else. -/
def nestedExpr : Expr :=
  .all [.keyword "AND", .all [.keyword ") OR (", .not (.keyword "a\n")]]

/-- The inner conjunction does not come back. -/
theorem parse_render_nestedExpr :
    nestedExpr.Grouped ∧ (∀ w ∈ nestedExpr.words, w ≠ "" ∧ '"' ∉ w.toList)
      ∧ parse nestedExpr.render
        = .ok (.all [.keyword "AND", .keyword ") OR (", .not (.keyword "a\n")])
      ∧ ¬ nestedExpr.Alternates := by
  have hinner : (Expr.all [.keyword ") OR (", .not (.keyword "a\n")]).Grouped := by
    refine .all (by decide) (List.forall_mem_cons.mpr ⟨.keyword _, ?_⟩)
    exact List.forall_mem_singleton.mpr (.not (.keyword _))
  have hgrouped : nestedExpr.Grouped := by
    refine .all (by decide) (List.forall_mem_cons.mpr ⟨.keyword _, ?_⟩)
    exact List.forall_mem_singleton.mpr hinner
  have hwords : ∀ w ∈ nestedExpr.words, w ≠ "" ∧ '"' ∉ w.toList := by decide
  obtain ⟨hread, hiff⟩ := parse_render nestedExpr hgrouped hwords
  refine ⟨hgrouped, hwords, hread, fun halternates => ?_⟩
  have hsame := Except.ok.inj (hread.symm.trans (hiff.mpr halternates))
  exact nomatch hsame

end LogSearch.Query
