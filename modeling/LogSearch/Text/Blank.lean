/-
White space, and cutting it off both ends of a text.

Queries, keywords, addresses and date bounds are all typed by people, so all of
them are trimmed with one notion of blank: the Unicode white space together
with the four information separators U+001C to U+001F. The zero-width space
U+200B and the byte order mark U+FEFF are not blank.
-/

set_option autoImplicit false

namespace LogSearch.Text

/-- White space in the sense of Unicode, the information separators included. -/
def isBlank (c : Char) : Bool :=
  let n := c.toNat
  (9 ≤ n && n ≤ 13) || (0x1C ≤ n && n ≤ 0x20) || n = 0x85 || n = 0xA0 || n = 0x1680
    || (0x2000 ≤ n && n ≤ 0x200A) || n = 0x2028 || n = 0x2029 || n = 0x202F || n = 0x205F
    || n = 0x3000

/-- Cuts the longest run of characters in `p` off the end. -/
def dropRightWhile (p : Char → Bool) (cs : List Char) : List Char :=
  (cs.reverse.dropWhile p).reverse

/-- Cuts the longest runs of characters in `p` off both ends. -/
def stripWhile (p : Char → Bool) (cs : List Char) : List Char :=
  dropRightWhile p (cs.dropWhile p)

/-- The text without white space at its ends. -/
def trim (s : String) : String :=
  String.ofList (stripWhile isBlank s.toList)

/-- Whether nothing but white space is in the text. -/
def isAllBlank (s : String) : Bool :=
  s.toList.all isBlank

/-- Every character that core's ASCII class counts as white space is blank. -/
theorem isBlank_of_isWhitespace {c : Char} (h : c.isWhitespace = true) : isBlank c = true := by
  simp only [Char.isWhitespace, Bool.or_eq_true, decide_eq_true_eq] at h
  rcases h with ((h | h) | h) | h <;> subst h <;> decide

end LogSearch.Text
