import LogSearch.Query.SyntaxError
import LogSearch.Text.Blank
import LogSearch.Text.Cut

/-
From the characters of a query to its tokens.

The scanner goes once through the characters, and each step takes at least one
of them. It can only fail at a quote; whatever else stands in a query is some
token.
-/

set_option autoImplicit false

namespace LogSearch.Query

/-- Whether the character can stand in a bare word. -/
def isWordChar (c : Char) : Bool :=
  !Text.isBlank c && c ≠ '(' && c ≠ ')'

/-- The symbol of a bare word. No character beyond ASCII has a capital form made of the letters of
an operator, so capitals in the ASCII sense decide. -/
def Symbol.ofWord (word : List Char) : Symbol :=
  let capitals := word.map Char.toUpper
  if capitals = ['A', 'N', 'D'] then .and
  else if capitals = ['O', 'R'] then .or
  else if capitals = ['N', 'O', 'T'] then .not
  else .word (String.ofList word) false

/-- The tokens of the rest of a query that starts at `position`. -/
def scan (position : Nat) (cs : List Char) : Except SyntaxError (List Token) :=
  match cs with
  | [] => .ok []
  | c :: cs =>
    if Text.isBlank c then
      scan (position + 1) cs
    else if c = '(' then do
      return ⟨.opening, position⟩ :: (← scan (position + 1) cs)
    else if c = ')' then do
      return ⟨.closing, position⟩ :: (← scan (position + 1) cs)
    else if c = '"' then
      match _h : (Text.cutAt '"' cs).2 with
      | none => .error (.unterminatedQuote position)
      | some rest => do
        let text := (Text.cutAt '"' cs).1
        if text.isEmpty then throw (.emptyQuote position)
        return ⟨.word (String.ofList text) true, position⟩ ::
          (← scan (position + text.length + 2) rest)
    else do
      -- `c` itself is no blank and no parenthesis here, so the word is not empty
      let word := c :: cs.takeWhile isWordChar
      return ⟨.ofWord word, position⟩ ::
        (← scan (position + word.length) (cs.dropWhile isWordChar))
termination_by cs.length
decreasing_by
  · simp
  · simp
  · simp
  · exact Nat.lt_succ_of_lt (Text.length_lt_of_cutAt (by assumption))
  · exact Nat.lt_succ_of_le (List.dropWhile_sublist _).length_le

/-- The tokens of a query. -/
def tokens (query : String) : Except SyntaxError (List Token) :=
  scan 0 query.toList

end LogSearch.Query
