/-
Settings from variables of the environment.

A number that is missing or empty keeps its default. One that cannot be read
keeps it too, and that is noted, so that a slip of the pen does not go
unnoticed and does not keep the program from starting.
-/
import LogSearch.Text.Quoted

set_option autoImplicit false

namespace LogSearch.Settings

/-- Variables with their values. -/
abbrev Variables := List (String × String)

/-- What every name of a variable starts with. -/
def variablePrefix : String := "LOGTRAWL_"

/-- The value of the variable of some name. -/
def Variables.value? (vars : Variables) (name : String) : Option String :=
  vars.lookup (variablePrefix ++ name)

/-- Reading settings, which leaves notes. -/
abbrev Reading := StateM (List String)

/-- Leaves a note. -/
def note (text : String) : Reading Unit :=
  modify (· ++ [text])

/-- Reads a number with the given reader. -/
def readNumber {α : Type} (read? : String → Option α) (vars : Variables) (name : String)
    (default : α) : Reading α := do
  match vars.value? name with
  | none => return default
  | some "" => return default
  | some value =>
    match read? value with
    | some n => return n
    | none =>
      let shown := Text.quoted value
      note s!"Ignoring invalid {variablePrefix}{name}={shown}"
      return default

end LogSearch.Settings
