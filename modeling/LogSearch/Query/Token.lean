/-
Tokens of the query language.

A query is words, quoted words, parentheses and the operators AND, OR and NOT,
with white space between them where needed. An operator is a whole bare word in
any mixture of cases; in quotes it is a word like any other. A bare word runs
up to the next blank or parenthesis, so a quote inside it is part of it, and a
quote opens a quoted word only where a token starts. There are no escapes:
a quoted word ends at the next quote.

Every token knows the position of its first character, since a rejected query
is explained by pointing into it.
-/

set_option autoImplicit false

namespace LogSearch.Query

/-- What a token says. -/
inductive Symbol where
  /-- A keyword, in quotes or bare. -/
  | word (text : String) (isQuoted : Bool)
  /-- The operator AND. -/
  | and
  /-- The operator OR. -/
  | or
  /-- The operator NOT. -/
  | not
  /-- An opening parenthesis. -/
  | opening
  /-- A closing parenthesis. -/
  | closing
deriving DecidableEq, Repr

/-- A symbol and the position of its first character. -/
structure Token where
  /-- What the token says. -/
  symbol : Symbol
  /-- The number of characters in front of it. -/
  position : Nat
deriving DecidableEq, Repr

/-- A keyword without its quotes, and any other symbol in its normal spelling. -/
def Symbol.text : Symbol → String
  | .word text _ => text
  | .and => "AND"
  | .or => "OR"
  | .not => "NOT"
  | .opening => "("
  | .closing => ")"

end LogSearch.Query
