/-
Which keywords are highlighted, and in which order.

The keywords of an expression are collected from its tree, and the ones of a query stand in its
tokens. Parsing joins, negates and groups operands but keeps them in their order, so both lists
are the same (`Derivation.words_value_expression`), and what is left after the repeats are gone
is told by the tokens alone: the different keywords, each at the place where it comes first.

Writing an expression out and reading it back flattens it, which also keeps the order. A keyword
with a quote in it is written in quotes all the same; then the written form is no query.
-/
import LogSearch.Proofs.Query.Quotes
import Mathlib.Data.List.Nodup

set_option autoImplicit false

namespace LogSearch.Query

/-! ## Without repeats -/

/-- The list has what occurs in the other one, each once and in the order in which it first
occurs there. -/
def ListsFirst (ks ws : List String) : Prop :=
  (∀ w, w ∈ ks ↔ w ∈ ws) ∧ ks.Pairwise fun v w => ws.idxOf v < ws.idxOf w

variable {ks ks' ws : List String}

/-- There is only one such list. -/
theorem ListsFirst.unique (h : ListsFirst ks ws) (h' : ListsFirst ks' ws) : ks = ks' := by
  have hnodup : ∀ {ls : List String}, ListsFirst ls ws → ls.Nodup := fun hls =>
    hls.2.imp fun hlt heq => absurd (heq ▸ hlt) (Nat.lt_irrefl _)
  have hperm : ks.Perm ks' := (List.perm_ext_iff_of_nodup (hnodup h) (hnodup h')).mpr fun w =>
    (h.1 w).trans (h'.1 w).symm
  exact hperm.eq_of_pairwise (fun v w _ _ hlt hgt => absurd hlt (Nat.lt_asymm hgt)) h.2 h'.2

/-- Dropping what has come before leaves such a list. -/
theorem listsFirst_eraseDups (ws : List String) : ListsFirst ws.eraseDups ws := by
  refine ⟨fun w => List.mem_eraseDups, ?_⟩
  induction ws using List.reverseRecOn with
  | nil => exact .nil
  | append_singleton ws w ih =>
    have hbefore : ws.eraseDups.Pairwise fun u v =>
        (ws ++ [w]).idxOf u < (ws ++ [w]).idxOf v := by
      refine ih.imp_of_mem fun {u v} hu hv hlt => ?_
      rw [List.idxOf_append_of_mem (List.mem_eraseDups.mp hu),
        List.idxOf_append_of_mem (List.mem_eraseDups.mp hv)]
      exact hlt
    rw [List.eraseDups_append]
    -- one more element is behind all others, or it has come before and changes nothing
    by_cases hw : w ∈ ws
    · have hnone : [w].removeAll ws = [] := by simp [List.removeAll, hw]
      rw [hnone, List.eraseDups_nil, List.append_nil]
      exact hbefore
    · have hsome : [w].removeAll ws = [w] := by simp [List.removeAll, hw]
      rw [hsome]
      refine List.pairwise_append.mpr ⟨hbefore, List.pairwise_singleton _ _, fun u hu v hv => ?_⟩
      obtain rfl := List.mem_singleton.mp hv
      rw [List.idxOf_append_of_mem (List.mem_eraseDups.mp hu), List.idxOf_append_of_notMem hw]
      exact Nat.lt_add_right _ (List.idxOf_lt_length_of_mem (List.mem_eraseDups.mp hu))

theorem eraseDups_eq_iff : ws.eraseDups = ks ↔ ListsFirst ks ws :=
  ⟨fun h => h ▸ listsFirst_eraseDups ws, (listsFirst_eraseDups ws).unique⟩

/-! ## The keywords of a query -/

/-- What breaks has a keyword with a quote. -/
theorem Breaks.not_plain {text : String} (h : Breaks text ws) :
    ¬ ∀ w ∈ ws, '"' ∉ w.toList := by
  obtain ⟨before, ss, word, after, more, -, -, rfl, hquote⟩ := h
  exact fun hplain => hplain word (List.mem_append_right _ (List.mem_cons_self ..)) hquote

/-- **The keywords of a query are those among its tokens**, each at the place where it first
comes. Where none of them holds a quote they stay the same when the expression is written out and
read back, and only there. -/
theorem keywords_parse {query : String} {e : Expr} (h : parse query = .ok e) :
    (∃ ts, tokens query = .ok ts
      ∧ ∀ ks, e.keywords = ks ↔ ListsFirst ks (wordsIn (ts.map Token.symbol)))
    ∧ ((∃ e', parse e.render = .ok e' ∧ e'.keywords = e.keywords)
      ↔ ∀ w ∈ e.keywords, '"' ∉ w.toList) := by
  constructor
  · obtain ⟨ts, htokens, d, hsymbols, rfl⟩ := parse_eq_ok_iff.mp h
    refine ⟨ts, htokens, fun ks => ?_⟩
    rw [Expr.keywords, d.words_value_expression, hsymbols]
    exact eraseDups_eq_iff
  · have hcompile : compile query none = .ok e := by
      rw [compile, if_pos (by decide), h]
    obtain ⟨hgrouped, hne, hbare⟩ := of_compile_eq_ok hcompile
    have hkeywords : (∀ w ∈ e.keywords, '"' ∉ w.toList) ↔ ∀ w ∈ e.words, '"' ∉ w.toList :=
      forall_congr' fun w => by rw [Expr.keywords, List.mem_eraseDups]
    rw [hkeywords]
    rcases spellsOrBreaks_render e hgrouped hne with ⟨hplain, -⟩ | hbreaks
    · refine iff_of_true ⟨e.flatten, ?_, ?_⟩ hplain
      · exact parse_render_of_plain hgrouped fun w hw => ⟨hne w hw, hplain w hw⟩
      · rw [Expr.keywords, Expr.words_flatten, Expr.keywords]
    · refine iff_of_false ?_ hbreaks.not_plain
      rintro ⟨e', hparse, -⟩
      obtain ⟨error, herror⟩ := exists_parse_error_of_breaks hbreaks (hbare (by decide))
      cases hparse.symm.trans herror

/-- A keyword that comes twice, and another one between, below a negation. -/
theorem keywords_parse_repeated :
    parse "b AND (NOT a OR b )"
        = .ok (.all [.keyword "b", .any [.not (.keyword "a"), .keyword "b"]])
      ∧ ListsFirst ["b", "a"] ["b", "a", "b"]
      ∧ ∃ e', parse (Expr.all [.keyword "b", .any [.not (.keyword "a"), .keyword "b"]]).render = .ok e'
        ∧ e'.keywords = ["b", "a"] := by
  have hb : Spells ('b' :: ([] ++ [' '])) [.word "b" false] :=
    Spells.word (by decide) (by decide) (by decide) (by decide)
  have ha : Spells ('a' :: ([] ++ [' '])) [.word "a" false] :=
    Spells.word (by decide) (by decide) (by decide) (by decide)
  have hand : Spells ('A' :: (['N', 'D'] ++ [' '])) [.and] :=
    Spells.word (by decide) (by decide) (by decide) (by decide)
  have hor : Spells ('O' :: (['R'] ++ [' '])) [.or] :=
    Spells.word (by decide) (by decide) (by decide) (by decide)
  have hinner := ((spells_not.append ha).append hor).append hb
  have hspells : Spells "b AND (NOT a OR b )".toList [.word "b" false, .and, .opening, .not,
      .word "a" false, .or, .word "b" false, .closing] :=
    (hb.append hand).append ((Spells.opening.append hinner).append Spells.closing)
  obtain ⟨ts, htokens, hsymbols⟩ := hspells.tokens
  have hparse : parse "b AND (NOT a OR b )"
      = .ok (.all [.keyword "b", .any [.not (.keyword "a"), .keyword "b"]]) := by
    refine parse_eq_ok_iff.mpr ⟨ts, htokens, .expression (.term (.keyword "b" false) (.andFactor
      (.group (.expression (.term (.not (.keyword "a" false)) .noFactor) (.orTerm
        (.term (.keyword "b" false) .noFactor) .noTerm))) .noFactor)) .noTerm, hsymbols.symm, rfl⟩
  obtain ⟨⟨us, hus, hlists⟩, hread⟩ := keywords_parse hparse
  obtain rfl : ts = us := Except.ok.inj (htokens.symm.trans hus)
  rw [hsymbols] at hlists
  exact ⟨hparse, (hlists ["b", "a"]).mp (by decide), hread.mpr (by decide)⟩

end LogSearch.Query
