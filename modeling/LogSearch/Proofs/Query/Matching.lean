/-
What a keyword matches.

A keyword and the content of a record are lower-cased apart from one another, and then one is
looked for in the other. That a keyword is found wherever it is written needs lower-casing to go
together with taking parts, which it does up to one character: the capital sigma, which is ς at
the end of a word and σ elsewhere.

A part depends on its surroundings by two bits only: whether a cased character comes before it and
whether one comes behind it, ignorable ones passed over. `lowerBetween` is lower-casing with both
of them given. A sigma is settled if neither bit matters to it (`IsSettled`), and the keywords that
are found in every content that has them are those whose sigmas are all settled
(`holdsFor_embedded_iff`).
-/
import LogSearch.Query.Expr
import Mathlib.Data.List.Forall2

set_option autoImplicit false

namespace LogSearch

namespace Text

/-! ## The surroundings of a part -/

/-- The first character of a text that is not passed over. -/
def firstCounting (cs : List Char) : Option Char :=
  cs.find? fun c => !isCaseIgnorable c

/-- Whether a cased character is the first that counts in a text, or in what comes behind it. -/
def startsCasedOr (behind : Bool) (cs : List Char) : Bool :=
  ((firstCounting cs).map isCased).getD behind

/-- Whether a cased character is the last that counts in a text, or in what comes before it. -/
def endsCasedOr (before : Bool) (cs : List Char) : Bool :=
  ((firstCounting cs.reverse).map isCased).getD before

/-- The form of a sigma. -/
def sigmaForm (isFinal : Bool) : Char := if isFinal then 'ς' else 'σ'

theorem sigmaForm_inj {a b : Bool} (h : sigmaForm a = sigmaForm b) : a = b := by
  revert a b
  decide

/-- Lower-cases a part of a text where a cased character comes before it, or does not, and one
comes behind it, or does not. -/
def lowerBetween (before behind : Bool) : List Char → List Char
  | [] => []
  | c :: cs =>
    (if c = 'Σ' then [sigmaForm (before && !startsCasedOr behind cs)] else lowerChar c)
      ++ lowerBetween (if isCaseIgnorable c then before else isCased c) behind cs

theorem startsCased_eq (cs : List Char) : startsCased cs = startsCasedOr false cs := by
  rw [startsCased, startsCasedOr, firstCounting]
  cases cs.find? fun c => !isCaseIgnorable c <;> rfl

theorem startsCasedOr_append (behind : Bool) (cs rest : List Char) :
    startsCasedOr behind (cs ++ rest) = startsCasedOr (startsCasedOr behind rest) cs := by
  simp only [startsCasedOr, firstCounting, List.find?_append]
  cases cs.find? fun c => !isCaseIgnorable c <;> rfl

theorem startsCasedOr_mono {behind behind' : Bool} (h : behind' = true → behind = true)
    {cs : List Char} : startsCasedOr behind' cs = true → startsCasedOr behind cs = true := by
  simp only [startsCasedOr]
  rcases firstCounting cs with _ | d
  · exact h
  · exact id

theorem endsCasedOr_cons (before : Bool) (c : Char) (cs : List Char) :
    endsCasedOr before (c :: cs)
      = endsCasedOr (if isCaseIgnorable c then before else isCased c) cs := by
  simp only [endsCasedOr, firstCounting, List.reverse_cons, List.find?_append, List.find?_cons,
    List.find?_nil]
  cases cs.reverse.find? fun c => !isCaseIgnorable c <;> cases isCaseIgnorable c <;> rfl

theorem endsCasedOr_append (before : Bool) (cs rest : List Char) :
    endsCasedOr before (cs ++ rest) = endsCasedOr (endsCasedOr before cs) rest := by
  induction cs generalizing before with
  | nil => rfl
  | cons c cs ih => rw [List.cons_append, endsCasedOr_cons, endsCasedOr_cons, ih]

/-- **Lower-casing part by part.** Each part is lower-cased between what its neighbours say. -/
theorem lowerBetween_append (before behind : Bool) (cs rest : List Char) :
    lowerBetween before behind (cs ++ rest)
      = lowerBetween before (startsCasedOr behind rest) cs
        ++ lowerBetween (endsCasedOr before cs) behind rest := by
  induction cs generalizing before with
  | nil => rfl
  | cons c cs ih =>
    rw [List.cons_append, lowerBetween, lowerBetween, ih, endsCasedOr_cons, startsCasedOr_append,
      List.append_assoc]

theorem lowerAfter_eq (before : Bool) (cs : List Char) :
    lowerAfter before cs = lowerBetween before false cs := by
  induction cs generalizing before with
  | nil => rfl
  | cons c cs ih =>
    rw [lowerAfter, lowerBetween, ih, startsCased_eq]
    rfl

theorem lowerChars_eq (cs : List Char) : lowerChars cs = lowerBetween false false cs :=
  lowerAfter_eq false cs

/-- A part in the middle of a text. -/
theorem exists_lowerChars_append (before cs behind : List Char) :
    ∃ front back, lowerChars (before ++ cs ++ behind)
      = front ++ lowerBetween (endsCasedOr false before) (startsCasedOr false behind) cs ++ back := by
  rw [lowerChars_eq, List.append_assoc, lowerBetween_append, lowerBetween_append,
    ← List.append_assoc]
  exact ⟨_, _, rfl⟩

/-! ## How the two bits show -/

/-- Whether two texts are alike but for sigmas that are final in the second one only. -/
def Sharper (xs ys : List Char) : Prop :=
  List.Forall₂ (fun x y => x = y ∨ x = 'σ' ∧ y = 'ς') xs ys

/-- A sigma becomes final with a cased character before it and without one behind it. -/
theorem sharper_lowerBetween {before before' behind behind' : Bool}
    (hbefore : before = true → before' = true) (hbehind : behind' = true → behind = true)
    (cs : List Char) :
    Sharper (lowerBetween before behind cs) (lowerBetween before' behind' cs) := by
  induction cs generalizing before before' with
  | nil => exact .nil
  | cons c cs ih =>
    have hcarried : (if isCaseIgnorable c then before else isCased c) = true →
        (if isCaseIgnorable c then before' else isCased c) = true := by
      split <;> simp_all
    have hrest := ih hcarried
    by_cases hsigma : c = 'Σ'
    · have hfinal : (before && !startsCasedOr behind cs) = true →
          (before' && !startsCasedOr behind' cs) = true := by
        simp only [Bool.and_eq_true, Bool.not_eq_true', ← Bool.not_eq_true]
        rintro ⟨hcased, hnot⟩
        exact ⟨hbefore hcased, fun hstarts => hnot (startsCasedOr_mono hbehind hstarts)⟩
      rw [lowerBetween, lowerBetween, if_pos hsigma, if_pos hsigma]
      refine .cons ?_ hrest
      simp only [sigmaForm]
      split
      · rename_i hyes
        rw [if_pos (hfinal hyes)]
        exact .inl rfl
      · split
        · exact .inr ⟨rfl, rfl⟩
        · exact .inl rfl
    · rw [lowerBetween, lowerBetween, if_neg hsigma, if_neg hsigma]
      exact List.rel_append (List.forall₂_same.mpr fun x _ => .inl rfl) hrest

theorem length_lowerBetween (before behind before' behind' : Bool) (cs : List Char) :
    (lowerBetween before behind cs).length = (lowerBetween before' behind' cs).length :=
  -- both have the length that they have where sigmas are as final as can be
  have hfinal (before behind : Bool) :
      (lowerBetween before behind cs).length = (lowerBetween true false cs).length :=
    (sharper_lowerBetween (fun _ => rfl) (fun h => absurd h Bool.false_ne_true) cs).length_eq
  (hfinal before behind).trans (hfinal before' behind').symm

/-- Two texts that are alike but for some characters `u` in place of `v` are the same if those
are as many in one as in the other. -/
theorem eq_of_count_le {u v : Char} (huv : u ≠ v) {xs ys : List Char}
    (h : List.Forall₂ (fun x y => x = y ∨ x = u ∧ y = v) xs ys) :
    ys.count u ≤ xs.count u ∧ (xs.count u ≤ ys.count u → xs = ys) := by
  induction h with
  | nil => simp
  | @cons x y xs ys hxy _ ih =>
    obtain ⟨hle, heq⟩ := ih
    rcases hxy with rfl | ⟨rfl, rfl⟩
    · simp only [List.count_cons]
      refine ⟨by omega, fun h => ?_⟩
      rw [heq (by omega)]
    · simp only [List.count_cons, beq_self_eq_true, if_true, beq_iff_eq, huv.symm, if_false]
      exact ⟨by omega, fun h => by omega⟩

/-! ## Sigmas that are settled -/

/-- Whether the surroundings of a part do not matter to a sigma in it, by what stands before it and
behind it in the part: a cased character comes behind it, or one that is not cased before it, or
there is some character that counts on either side. -/
def IsSettled (front back : List Char) : Prop :=
  (firstCounting back).any isCased = true
    ∨ (firstCounting front.reverse).any (fun c => !isCased c) = true
    ∨ ((firstCounting front.reverse).isSome = true ∧ (firstCounting back).isSome = true)

/-- A sigma is settled exactly if neither bit matters to its form. -/
theorem isSettled_iff {front back : List Char} :
    IsSettled front back ↔ ∀ before behind,
      (endsCasedOr before front && !startsCasedOr behind back)
        = (endsCasedOr false front && !startsCasedOr false back) := by
  simp only [IsSettled, endsCasedOr, startsCasedOr]
  rcases firstCounting front.reverse with _ | c <;> rcases firstCounting back with _ | d
  · simp
  · simp
  · simp
  · simp

/-- If all the sigmas of a part are settled, its surroundings do not matter. -/
theorem lowerBetween_of_isSettled {cs : List Char}
    (h : ∀ front back, cs = front ++ 'Σ' :: back → IsSettled front back) (before behind : Bool) :
    lowerBetween before behind cs = lowerBetween false false cs := by
  -- what has been lower-cased already is `front`, and it has settled the form of what is left
  have hrest : ∀ rest front, cs = front ++ rest →
      lowerBetween (endsCasedOr before front) behind rest
        = lowerBetween (endsCasedOr false front) false rest := by
    intro rest
    induction rest with
    | nil => intro front _; rfl
    | cons c rest ih =>
      intro front hcs
      have hnext (bit : Bool) : (if isCaseIgnorable c then endsCasedOr bit front else isCased c)
          = endsCasedOr bit (front ++ [c]) := by
        rw [endsCasedOr_append, endsCasedOr_cons]
        rfl
      rw [lowerBetween, lowerBetween, hnext, hnext, ih (front ++ [c]) (by simp [hcs])]
      congr 1
      by_cases hsigma : c = 'Σ'
      · subst hsigma
        rw [if_pos rfl, if_pos rfl, isSettled_iff.mp (h front rest hcs) before behind]
      · rw [if_neg hsigma, if_neg hsigma]
  exact hrest cs [] rfl

/-- The form of a sigma in a part. -/
theorem lowerBetween_sigma (before behind : Bool) (front back : List Char) :
    lowerBetween before behind (front ++ 'Σ' :: back)
      = lowerBetween before (startsCasedOr behind ('Σ' :: back)) front
        ++ sigmaForm (endsCasedOr before front && !startsCasedOr behind back)
          :: lowerBetween (isCased 'Σ') behind back := by
  have hcounts : isCaseIgnorable 'Σ' = false := by decide +kernel
  rw [lowerBetween_append, lowerBetween, if_pos rfl, hcounts]
  rfl

/-- If neither bit matters to a part, its sigmas are settled. -/
theorem isSettled_of_lowerBetween {cs front back : List Char}
    (hbefore : lowerBetween true false cs = lowerBetween false false cs)
    (hbehind : lowerBetween false true cs = lowerBetween false false cs)
    (hcs : cs = front ++ 'Σ' :: back) : IsSettled front back := by
  have hform (before behind : Bool)
      (hsame : lowerBetween before behind cs = lowerBetween false false cs) :
      (endsCasedOr before front && !startsCasedOr behind back)
        = (endsCasedOr false front && !startsCasedOr false back) := by
    rw [hcs, lowerBetween_sigma, lowerBetween_sigma] at hsame
    have hback := (List.append_inj hsame (length_lowerBetween ..)).2
    exact sigmaForm_inj (List.cons.inj hback).1
  have hone := hform true false hbefore
  have htwo := hform false true hbehind
  simp only [IsSettled, endsCasedOr, startsCasedOr] at hone htwo ⊢
  generalize firstCounting front.reverse = last at *
  generalize firstCounting back = first at *
  rcases last with _ | c <;> rcases first with _ | d
  · simp at hone
  · simpa using hone
  · simpa using htwo
  · simp

theorem count_le_of_occursIn {needle cs : List Char} (h : occursIn needle cs = true) (c : Char) :
    needle.count c ≤ cs.count c := by
  obtain ⟨front, back, rfl⟩ := occursIn_iff.mp h
  simp only [List.count_append]
  omega

/-- With a letter in front. -/
theorem lowerChars_letter_append (cs : List Char) :
    lowerChars (['a'] ++ cs ++ []) = 'a' :: lowerBetween true false cs := by
  have hcounts : isCaseIgnorable 'a' = false := by decide +kernel
  rw [lowerChars_eq, List.append_nil, List.singleton_append, lowerBetween, hcounts]
  rfl

/-- With a letter behind. -/
theorem lowerChars_append_letter (cs : List Char) :
    lowerChars ([] ++ cs ++ ['a']) = lowerBetween false true cs ++ ['a'] := by
  have hcased : startsCasedOr false ['a'] = true := by decide +kernel
  rw [lowerChars_eq, List.nil_append, lowerBetween_append, hcased]
  rfl

/-- **What is found in all its surroundings.** -/
theorem occursIn_lowerChars_iff {cs : List Char} :
    (∀ before behind, occursIn (lowerChars cs) (lowerChars (before ++ cs ++ behind)) = true)
      ↔ ∀ front back, cs = front ++ 'Σ' :: back → IsSettled front back := by
  constructor
  · intro h front back hcs
    -- one letter beside the part is enough to tell: if it matters, one of the two forms of sigma
    -- is rarer in the whole text than it is in the part on its own
    have hbefore : lowerBetween false false cs = lowerBetween true false cs := by
      have hsharper : Sharper (lowerBetween false false cs) (lowerBetween true false cs) :=
        sharper_lowerBetween (fun _ => rfl) id cs
      have hcount := count_le_of_occursIn (h ['a'] []) 'σ'
      rw [lowerChars_letter_append, lowerChars_eq, List.count_cons_of_ne (by decide)] at hcount
      exact (eq_of_count_le (by decide) hsharper).2 hcount
    have hbehind : lowerBetween false false cs = lowerBetween false true cs := by
      have hsharper : Sharper (lowerBetween false true cs) (lowerBetween false false cs) :=
        sharper_lowerBetween id (fun _ => rfl) cs
      have hcount := count_le_of_occursIn (h [] ['a']) 'ς'
      rw [lowerChars_append_letter, lowerChars_eq, List.count_append] at hcount
      have hflip : List.Forall₂ (fun x y => x = y ∨ x = 'ς' ∧ y = 'σ')
          (lowerBetween false false cs) (lowerBetween false true cs) :=
        hsharper.flip.imp fun x y hxy => hxy.imp Eq.symm And.symm
      exact (eq_of_count_le (by decide) hflip).2 hcount
    exact isSettled_of_lowerBetween hbefore.symm hbehind.symm hcs
  · intro h before behind
    obtain ⟨front, back, hlowered⟩ := exists_lowerChars_append before cs behind
    rw [lowerBetween_of_isSettled h, ← lowerChars_eq] at hlowered
    exact occursIn_iff.mpr ⟨front, back, hlowered⟩

end Text

namespace Query

namespace Expr

/-- **A keyword is found in all contents that have it**, and its negation rejects them all, exactly
if its sigmas are settled. -/
theorem holdsFor_embedded_iff (keyword : String) :
    (∀ before behind : String,
        (Expr.keyword keyword).holdsFor (before ++ keyword ++ behind) = true
          ∧ (Expr.not (.keyword keyword)).holdsFor (before ++ keyword ++ behind) = false)
      ↔ ∀ front back, keyword.toList = front ++ 'Σ' :: back → Text.IsSettled front back := by
  have hnot (content : String) : (Expr.not (.keyword keyword)).holdsFor content
      = !(Expr.keyword keyword).holdsFor content := by
    simp only [holdsFor, holdsInLowered]
  have hkeyword (before behind : String) :
      (Expr.keyword keyword).holdsFor (before ++ keyword ++ behind)
        = Text.occursIn (Text.lowerChars keyword.toList)
          (Text.lowerChars (before.toList ++ keyword.toList ++ behind.toList)) := by
    simp only [holdsFor, holdsInLowered, String.toList_append]
  simp only [hnot, Bool.not_eq_false', and_self, hkeyword]
  rw [← Text.occursIn_lowerChars_iff]
  constructor
  · intro h before behind
    simpa only [String.toList_ofList] using h (String.ofList before) (String.ofList behind)
  · intro h before behind
    exact h before.toList behind.toList

/-- A keyword that ends in a sigma is not found where the word goes on. -/
theorem not_holdsFor_of_word_goes_on :
    (Expr.keyword "ΑΣ").holdsFor "ΑΣΑ" = false
      ∧ (Expr.not (.keyword "ΑΣ")).holdsFor "ΑΣΑ" = true := by
  decide +kernel

end Expr

end Query

end LogSearch
