import LogSearch.Text.Lowercase
import LogSearch.Text.Match

/-
Boolean keyword expressions.

An expression asks for keywords, which match anywhere in a text and without
regard to case, joined by AND, OR and NOT. Both sides are lower-cased before
they are compared. AND and OR join any number of operands at one level.

Equality, meaning, keywords and the written form are each a recursion over the
expression together with one over its operands.
-/

set_option autoImplicit false

namespace LogSearch.Query

/-- A condition on the content of a log record. -/
inductive Expr where
  /-- The text occurs, in whatever case. -/
  | keyword (text : String)
  /-- The operand does not hold. -/
  | not (operand : Expr)
  /-- All operands hold. -/
  | all (operands : List Expr)
  /-- One of the operands holds. -/
  | any (operands : List Expr)
deriving Repr, Inhabited

namespace Expr

/-- What holds of keywords and passes from operands to what is made of them holds of every
expression. -/
@[elab_as_elim, induction_eliminator]
theorem induction {motive : Expr → Prop} (keyword : ∀ text, motive (.keyword text))
    (not : ∀ e, motive e → motive (.not e))
    (all : ∀ es, (∀ e ∈ es, motive e) → motive (.all es))
    (any : ∀ es, (∀ e ∈ es, motive e) → motive (.any es)) (e : Expr) : motive e :=
  match e with
  | .keyword text => keyword text
  | .not e => not e (induction keyword not all any e)
  | .all es => all es fun e _ => induction keyword not all any e
  | .any es => any es fun e _ => induction keyword not all any e

/-! ## Equality -/

mutual

/-- Whether two expressions are the same tree. -/
def same : Expr → Expr → Bool
  | keyword s, keyword t => s == t
  | not e, not f => same e f
  | all es, all fs => sameEach es fs
  | any es, any fs => sameEach es fs
  | _, _ => false

/-- Whether two lists of expressions are the same trees in the same order. -/
def sameEach : List Expr → List Expr → Bool
  | [], [] => true
  | e :: es, f :: fs => same e f && sameEach es fs
  | _, _ => false

end

/-! ## Meaning -/

mutual

/-- Whether the condition holds for content that is lower-cased already. -/
def holdsInLowered (content : List Char) : Expr → Bool
  | keyword text => Text.occursIn (Text.lowerChars text.toList) content
  | not e => !holdsInLowered content e
  | all es => allHold content es
  | any es => anyHolds content es

/-- Whether all the conditions hold. -/
def allHold (content : List Char) : List Expr → Bool
  | [] => true
  | e :: es => holdsInLowered content e && allHold content es

/-- Whether one of the conditions holds. -/
def anyHolds (content : List Char) : List Expr → Bool
  | [] => false
  | e :: es => holdsInLowered content e || anyHolds content es

end

theorem allHold_eq_all (content : List Char) (es : List Expr) :
    allHold content es = es.all (holdsInLowered content) := by
  induction es with
  | nil => rfl
  | cons e es ih => rw [allHold, ih, List.all_cons]

theorem anyHolds_eq_any (content : List Char) (es : List Expr) :
    anyHolds content es = es.any (holdsInLowered content) := by
  induction es with
  | nil => rfl
  | cons e es ih => rw [anyHolds, ih, List.any_cons]

/-- Whether the condition holds for some content. -/
def holdsFor (e : Expr) (content : String) : Bool :=
  e.holdsInLowered (Text.lowerChars content.toList)

/-! ## Keywords -/

mutual

/-- The keywords from left to right, repeats included. -/
def words : Expr → List String
  | keyword text => [text]
  | not e => words e
  | all es => wordsOfEach es
  | any es => wordsOfEach es

/-- The keywords of some expressions, one after the other. -/
def wordsOfEach : List Expr → List String
  | [] => []
  | e :: es => words e ++ wordsOfEach es

end

theorem wordsOfEach_eq_flatMap (es : List Expr) : wordsOfEach es = es.flatMap words := by
  induction es with
  | nil => rfl
  | cons e es ih => rw [wordsOfEach, ih, List.flatMap_cons]

/-- The different keywords in the order in which they first appear. -/
def keywords (e : Expr) : List String :=
  e.words.eraseDups

/-! ## Written form -/

/-- Whether the expression is a disjunction. -/
def isAny : Expr → Bool
  | any _ => true
  | _ => false

/-- Whether the expression joins operands. -/
def isGroup : Expr → Bool
  | all _ => true
  | any _ => true
  | _ => false

/-- Puts a written expression in parentheses if it needs them. -/
def parenthesized (needed : Bool) (text : String) : String :=
  if needed then "(" ++ text ++ ")" else text

mutual

/-- The expression as a query. Every keyword is in quotes, and a parenthesis stands where an
operand binds weaker than its operator. -/
def render : Expr → String
  | keyword text => "\"" ++ text ++ "\""
  | not e => "NOT " ++ parenthesized e.isGroup (render e)
  | all es => " AND ".intercalate (renderFactors es)
  | any es => " OR ".intercalate (renderTerms es)

/-- The operands of a conjunction. -/
def renderFactors : List Expr → List String
  | [] => []
  | e :: es => parenthesized e.isAny (render e) :: renderFactors es

/-- The operands of a disjunction. -/
def renderTerms : List Expr → List String
  | [] => []
  | e :: es => render e :: renderTerms es

end

theorem renderFactors_eq_map (es : List Expr) :
    renderFactors es = es.map fun e => parenthesized e.isAny e.render := by
  induction es with
  | nil => rfl
  | cons e es ih => rw [renderFactors, ih, List.map_cons]

theorem renderTerms_eq_map (es : List Expr) : renderTerms es = es.map render := by
  induction es with
  | nil => rfl
  | cons e es ih => rw [renderTerms, ih, List.map_cons]

/-- Joins operands, where a single one stands for itself. -/
def join (operator : List Expr → Expr) : List Expr → Expr
  | [e] => e
  | es => operator es

end Expr

end LogSearch.Query
