import LogSearch.Query.Expr
import LogSearch.Query.Scan

/-
From tokens to an expression.

    Expression := Term ( OR Term )*
    Term       := Factor ( AND Factor )*
    Factor     := NOT Factor | '(' Expression ')' | keyword

Each reader takes an expression of its kind off the front of the tokens and
returns the rest together with the fact that it is shorter, so the whole is a
recursion on the number of tokens. Below that, an expression starts with a term
and a term with a factor on the same tokens; the second component of the
measure orders those.
-/

set_option autoImplicit false

namespace LogSearch.Query

/-- An expression read off the front of some tokens, and what is left of them. -/
structure Reading (ts : List Token) where
  /-- The expression. -/
  expr : Expr
  /-- The tokens behind it. -/
  rest : List Token
  /-- Something was read. -/
  shorter : rest.length < ts.length

/-- Further operands read off the front of some tokens, and what is left of them. -/
structure Operands (ts : List Token) where
  /-- The operands, which may be none. -/
  exprs : List Expr
  /-- The tokens behind them. -/
  rest : List Token
  /-- Nothing was added. -/
  notLonger : rest.length ≤ ts.length

/-- The tokens behind a closing parenthesis, if the first one is such. -/
def afterClosing? : List Token → Option (List Token)
  | ⟨.closing, _⟩ :: rest => some rest
  | _ => none

theorem length_lt_of_afterClosing? {ts rest : List Token} (h : afterClosing? ts = some rest) :
    rest.length < ts.length := by
  cases ts with
  | nil => simp [afterClosing?] at h
  | cons t ts =>
    obtain ⟨symbol, position⟩ := t
    cases symbol <;> simp_all [afterClosing?]

mutual

/-- Reads terms joined by OR. -/
def expression (ts : List Token) : Except SyntaxError (Reading ts) :=
  match term ts with
  | .error e => .error e
  | .ok ⟨first, rest, h⟩ =>
    match moreTerms rest with
    | .error e => .error e
    | .ok ⟨others, rest', h'⟩ => .ok ⟨.join .any (first :: others), rest', by omega⟩
termination_by (ts.length, 4)

/-- Reads further terms, each with an OR in front. -/
def moreTerms (ts : List Token) : Except SyntaxError (Operands ts) :=
  match ts with
  | ⟨.or, _⟩ :: ts =>
    match term ts with
    | .error e => .error e
    | .ok ⟨next, rest, h⟩ =>
      match moreTerms rest with
      | .error e => .error e
      | .ok ⟨others, rest', h'⟩ => .ok ⟨next :: others, rest', by simp; omega⟩
  | ts => .ok ⟨[], ts, Nat.le_refl _⟩
termination_by (ts.length, 0)

/-- Reads factors joined by AND. -/
def term (ts : List Token) : Except SyntaxError (Reading ts) :=
  match factor ts with
  | .error e => .error e
  | .ok ⟨first, rest, h⟩ =>
    match moreFactors rest with
    | .error e => .error e
    | .ok ⟨others, rest', h'⟩ => .ok ⟨.join .all (first :: others), rest', by omega⟩
termination_by (ts.length, 3)

/-- Reads further factors, each with an AND in front. -/
def moreFactors (ts : List Token) : Except SyntaxError (Operands ts) :=
  match ts with
  | ⟨.and, _⟩ :: ts =>
    match factor ts with
    | .error e => .error e
    | .ok ⟨next, rest, h⟩ =>
      match moreFactors rest with
      | .error e => .error e
      | .ok ⟨others, rest', h'⟩ => .ok ⟨next :: others, rest', by simp; omega⟩
  | ts => .ok ⟨[], ts, Nat.le_refl _⟩
termination_by (ts.length, 0)

/-- Reads a keyword, a negation or an expression in parentheses. -/
def factor (ts : List Token) : Except SyntaxError (Reading ts) :=
  match ts with
  | ⟨.word text _, _⟩ :: rest => .ok ⟨.keyword text, rest, by simp⟩
  | ⟨.not, _⟩ :: ts =>
    match factor ts with
    | .error e => .error e
    | .ok ⟨operand, rest, h⟩ => .ok ⟨.not operand, rest, by simp; omega⟩
  | ⟨.opening, openedAt⟩ :: ts =>
    match expression ts with
    | .error e => .error e
    | .ok ⟨inner, rest, h⟩ =>
      match h' : afterClosing? rest with
      | none => .error (.unclosed openedAt rest.head?)
      | some rest' =>
        .ok ⟨inner, rest', by have := length_lt_of_afterClosing? h'; simp; omega⟩
  | ts => .error (.missingOperand ts.head?)
termination_by (ts.length, 2)

end

/-- Reads the tokens of a whole query. -/
def parseTokens (ts : List Token) : Except SyntaxError Expr :=
  match expression ts with
  | .error e => .error e
  | .ok ⟨expr, [], _⟩ => .ok expr
  | .ok ⟨_, ⟨.closing, position⟩ :: _, _⟩ => .error (.unopened position)
  | .ok ⟨_, token :: _, _⟩ => .error (.missingOperator token)

/-- Reads a query. -/
def parse (query : String) : Except SyntaxError Expr := do
  if Text.isAllBlank query then throw .emptyQuery
  parseTokens (← tokens query)

end LogSearch.Query
