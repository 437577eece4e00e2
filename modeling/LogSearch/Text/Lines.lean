/-
Lines of a text.

A line feed ends a line. `splitLines` is the plain cut at every line feed. The
other readers answer the questions that searching asks without cutting up the
whole text first: the first few lines, the last few, and all of them one after
the other with their numbers. The last also drops a carriage return before the
line feed, and does not count the empty rest behind a final line feed as a
line.
-/
import LogSearch.Text.Cut

set_option autoImplicit false

namespace LogSearch.Text

/-- The pieces of a text between line feeds. -/
def splitLines (s : String) : List String :=
  splitOn '\n' s

/-- At most `count` pieces from the front; what follows them is not looked at. -/
def firstPieces : Nat → List Char → List (List Char)
  | 0, _ => []
  | count + 1, cs =>
    (cutAt '\n' cs).1 ::
      match (cutAt '\n' cs).2 with
      | none => []
      | some rest => firstPieces count rest

/-- At most `count` lines from the start of the text. -/
def firstLines (count : Int) (s : String) : List String :=
  (firstPieces count.toNat s.toList).map String.ofList

/-- The text from the `count`-th line feed before a place on, if there are so many. The place is
told by what stands before it, back to front, and by what stands behind it. -/
def fromFeed : Nat → List Char → List Char → Option (List Char)
  | 0, _, behind => some behind
  | count + 1, before, behind =>
    match cutAt '\n' before with
    | (_, none) => none
    | (line, some rest) => fromFeed count rest ('\n' :: (line.reverse ++ behind))

/-- At most `count` lines from the end of the text. Where they start is found by walking
backwards, and only the text from there on is cut up. -/
def lastLines (count : Int) (s : String) : List String :=
  if count ≤ 0 then []
  else
    match fromFeed count.toNat s.toList.reverse [] with
    | none => splitLines s
    | some behind => (splitChars '\n' behind.tail).map String.ofList

/-- Drops a carriage return at the end. -/
def dropReturn (cs : List Char) : List Char :=
  if cs.getLast? = some '\r' then cs.dropLast else cs

/-- The lines of the rest of a text, with numbers that go on from `number`. -/
def numberedFrom (number : Nat) (cs : List Char) : List (Nat × String) :=
  if cs.isEmpty then []
  else
    (number, String.ofList (dropReturn (cutAt '\n' cs).1)) ::
      match _h : (cutAt '\n' cs).2 with
      | none => []
      | some rest => numberedFrom (number + 1) rest
termination_by cs.length
decreasing_by exact length_lt_of_cutAt (by assumption)

/-- The lines of a text with their numbers, counted from one. -/
def numberedLines (s : String) : List (Nat × String) :=
  numberedFrom 1 s.toList

/-- Joins lines with a line feed between each two. -/
def joinLines (lines : List String) : String :=
  "\n".intercalate lines

end LogSearch.Text
