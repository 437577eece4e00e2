import LogSearch.Query.Parse
import LogSearch.Text.Lines

/-
Queries given as plain keywords.

Instead of an expression a caller may give a list of keywords and say whether
all of them are wanted or any. Here a keyword is taken as it stands, so words
such as AND are not operators and quotes are part of the keyword. White space
at its ends does not count, and an empty keyword is passed over.
-/

set_option autoImplicit false

namespace LogSearch.Query

/-- How plain keywords are joined: by AND if the mode says `and` and by OR if it says `or`, in
whatever case. -/
def operatorOf? (logic : Option String) : Option (List Expr → Expr) :=
  match Text.lower (Text.trim (logic.getD "")) with
  | "and" => some .all
  | "or" => some .any
  | _ => none

/-- The expression for a list of keywords. -/
def ofKeywords (keywords : List String) (logic : Option String) : Except SyntaxError Expr := do
  let some operator := operatorOf? logic | throw (.unknownLogic logic)
  match (keywords.map Text.trim).filter fun k => !k.isEmpty with
  | [] => throw .emptyQuery
  | ks => return .join operator (ks.map .keyword)

/-- The expression for keywords on lines of their own. -/
def ofKeywordLines (text : String) (logic : Option String) : Except SyntaxError Expr :=
  ofKeywords (Text.splitLines text) logic

/-- Reads a query in either form: with a mode it is keywords on lines, without one an
expression. -/
def compile (text : String) (logic : Option String) : Except SyntaxError Expr :=
  if (logic.getD "").isEmpty then parse text else ofKeywordLines text logic

end LogSearch.Query
