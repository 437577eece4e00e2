/-
Upper-casing, in full: every character is replaced by its capital form, which may
have several characters and does not depend on its surroundings.
-/
import LogSearch.Text.Lowercase
import LogSearch.Text.UpperTable

set_option autoImplicit false

namespace LogSearch.Text

/-- The capital form of one character. -/
def upperChar (c : Char) : List Char :=
  if c.toNat < 0x80 then [c.toUpper]
  else
    match upperForms.lookup c.toNat with
    | some form => form.map Char.ofNat
    | none => [Char.ofNat (c.toNat + shiftIn upperRows c.toNat).toNat]

/-- The capital form of a text. -/
def upper (s : String) : String :=
  String.ofList (s.toList.flatMap upperChar)

end LogSearch.Text
