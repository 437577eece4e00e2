/-
Names in a ZIP file.

A flag says that a name is UTF-8. Without it the name is in the code page of the
first personal computers, which is ASCII with 128 more characters.
-/
import LogSearch.Zip.Defect

set_option autoImplicit false

namespace LogSearch.Zip

/-- The upper half of code page 437. -/
def codePage : List Char :=
  ("ÇüéâäàåçêëèïîìÄÅÉæÆôöòûùÿÖÜ¢£¥₧ƒáíóúñÑªº¿⌐¬½¼¡«»░▒▓│┤╡╢╖╕╣║╗╝╜╛┐" ++
   "└┴┬├─┼╞╟╚╔╩╦╠═╬╧╨╤╥╙╘╒╓╫╪┘┌█▄▌▐▀αßΓπΣσµτΦΘΩδ∞φε∩≡±≥≤⌠⌡÷≈°∙·√ⁿ²■\u00A0").toList

/-- A character of the code page. -/
def codePageChar (b : UInt8) : Char :=
  if b < 0x80 then Char.ofNat b.toNat else codePage.getD (b.toNat - 0x80) '\uFFFD'

/-- Whether the flags of an entry say that its name is UTF-8. -/
def isUtf8Name (flags : Nat) : Bool := flags.testBit 11

/-- Reads a name under the flags that come with it. -/
def readName (flags : Nat) (name : Bytes) : Except Failure String :=
  if isUtf8Name flags then
    match Text.faultFrom? 0 name with
    | none => .ok (Text.decodeUtf8 name)
    | some fault => .error (.refusal (.malformedName fault))
  else .ok (String.ofList (name.map codePageChar))

end LogSearch.Zip
