import LogSearch.Query.Token

/-
Why a query is rejected.

Each cause keeps what its explanation shows: the token that was found instead
of the expected one, or the place where something was opened and never closed.
`none` for a token means that the query had ended.
-/

set_option autoImplicit false

namespace LogSearch.Query

/-- The cause for which a query is rejected. -/
inductive SyntaxError where
  /-- A quote is opened at this position and never closed. -/
  | unterminatedQuote (position : Nat)
  /-- The quotes at this position hold nothing. -/
  | emptyQuote (position : Nat)
  /-- There is nothing to search for. -/
  | emptyQuery
  /-- An operand is missing; this is what stands in its place. -/
  | missingOperand (found : Option Token)
  /-- The parenthesis opened at this position is not closed before the token found. -/
  | unclosed (openedAt : Nat) (found : Option Token)
  /-- A parenthesis is closed at this position that was not opened. -/
  | unopened (position : Nat)
  /-- Two operands follow each other; this token starts the second. -/
  | missingOperator (found : Token)
  /-- The mode for joining plain keywords is neither `and` nor `or`. -/
  | unknownLogic (logic : Option String)
deriving DecidableEq, Repr

/-- A token as an explanation names it. -/
def describe : Option Token → String
  | none => "end of expression"
  | some ⟨.word text _, _⟩ => s!"keyword '{text}'"
  | some token => s!"'{token.symbol.text}'"

namespace SyntaxError

/-- The explanation without the position. -/
def message : SyntaxError → String
  | unterminatedQuote _ => "Unterminated quoted keyword"
  | emptyQuote _ => "Empty quoted keyword"
  | emptyQuery => "Empty expression"
  | missingOperand none => "Expected a keyword, NOT or '(' but reached end of expression"
  | missingOperand found => s!"Expected a keyword, NOT or '(' but found {describe found}"
  | unclosed openedAt found =>
    s!"Unbalanced parenthesis: '(' at position {openedAt} is never closed (found {describe found})"
  | unopened _ => "Unbalanced parenthesis: unexpected ')'"
  | missingOperator found => s!"Expected AND or OR before {describe (some found)}"
  | unknownLogic logic =>
    let given := logic.getD "None"
    s!"Unknown keyword logic '{given}', expected 'and' or 'or'"

/-- Where in the query the trouble is. A query that ends too early has no such place, unless a
parenthesis is open. -/
def position : SyntaxError → Option Nat
  | unterminatedQuote position => some position
  | emptyQuote position => some position
  | emptyQuery => none
  | missingOperand found => found.map Token.position
  | unclosed openedAt found => some ((found.map Token.position).getD openedAt)
  | unopened position => some position
  | missingOperator found => some found.position
  | unknownLogic _ => none

/-- The explanation, with the position if there is one. -/
def report (e : SyntaxError) : String :=
  match e.position with
  | none => e.message
  | some position => s!"{e.message} (at position {position})"

end SyntaxError

end LogSearch.Query
