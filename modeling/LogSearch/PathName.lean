/-
Names of files.

A path is a row of names with slashes between them. Empty names and single dots
change nothing and are left out, but for two slashes at the very start, which
some systems tell from one. The path of nothing is a dot.
-/
import LogSearch.Text.Cut

set_option autoImplicit false

namespace LogSearch.PathName

/-- What a path starts with. -/
def root (path : String) : String :=
  match (path.toList.takeWhile (· = '/')).length with
  | 0 => ""
  | 2 => "//"
  | _ => "/"

/-- The names in a path. -/
def names (path : String) : List String :=
  (Text.splitOn '/' path).filter fun name => name ≠ "" && name ≠ "."

/-- The path without what changes nothing. -/
def normalized (path : String) : String :=
  match root path ++ "/".intercalate (names path) with
  | "" => "."
  | written => written

/-- The last name in a path. -/
def fileName (path : String) : String :=
  (names path).getLast?.getD ""

end LogSearch.PathName
