/-
How a value is shown in a message.

A text on its own is shown as it is, and in quotes inside a list or an object. The
words for nothing and for truth have capitals.
-/
import LogSearch.Decimal.Written
import LogSearch.Json.Value
import LogSearch.Text.Quoted

set_option autoImplicit false

namespace LogSearch.Json.Value

mutual

/-- The value as a part of another one. -/
def shownInside : Value → String
  | null => "None"
  | bool b => if b then "True" else "False"
  | int n => toString n
  | float x => x.text
  | string s => Text.quoted s
  | array items => "[" ++ ", ".intercalate (eachShown items) ++ "]"
  | object members => "\x7b" ++ ", ".intercalate (eachMemberShown members) ++ "\x7d"

/-- The items of a list. -/
def eachShown : List Value → List String
  | [] => []
  | item :: items => shownInside item :: eachShown items

/-- The members of an object. -/
def eachMemberShown : List (String × Value) → List String
  | [] => []
  | (name, value) :: members =>
    (Text.quoted name ++ ": " ++ shownInside value) :: eachMemberShown members

end

/-- The value on its own. -/
def shown : Value → String
  | string s => s
  | v => v.shownInside

end LogSearch.Json.Value
