/-
A text in quotes, as shown in messages about a value that could not be read.

The quotes are single, unless the text has a single and no double quote. The
quote in use and the backslash are escaped by a backslash, line feed, carriage
return and tab have letters, and all else that cannot be shown is written by
its code point in two, four or eight hexadecimal digits. Bytes are written in the same way behind a `b`, where only
ASCII is shown as it is.
-/
import LogSearch.Text.Printable
import LogSearch.Text.Utf8

set_option autoImplicit false

namespace LogSearch.Text

/-- The digit of a value below sixteen. -/
def hexDigit (n : Nat) : Char :=
  if n < 10 then Char.ofNat (0x30 + n) else Char.ofNat (0x57 + n)

/-- The last `width` hexadecimal digits of a number. -/
def hexDigits : Nat → Nat → List Char
  | 0, _ => []
  | width + 1, n => hexDigits width (n / 16) ++ [hexDigit (n % 16)]

/-- One character as it is written between quotes of the given kind. -/
def escapeIn (quote c : Char) : List Char :=
  if c = quote ∨ c = '\\' then ['\\', c]
  else if c = '\n' then ['\\', 'n']
  else if c = '\r' then ['\\', 'r']
  else if c = '\t' then ['\\', 't']
  else if isPrintable c then [c]
  else if c.toNat < 0x100 then '\\' :: 'x' :: hexDigits 2 c.toNat
  else if c.toNat < 0x10000 then '\\' :: 'u' :: hexDigits 4 c.toNat
  else '\\' :: 'U' :: hexDigits 8 c.toNat

/-- The quotes to put around some characters. -/
def quoteFor (cs : List Char) : Char :=
  if cs.contains '\'' && !cs.contains '"' then '"' else '\''

/-- The text in quotes, with everything escaped that would not show or would end it. -/
def quoted (s : String) : String :=
  let quote := quoteFor s.toList
  String.ofList (quote :: s.toList.flatMap (escapeIn quote) ++ [quote])

/-- One byte as it is written between quotes of the given kind. -/
def escapeByteIn (quote : Char) (b : UInt8) : List Char :=
  if b < 0x80 then escapeIn quote (Char.ofNat b.toNat)
  else '\\' :: 'x' :: hexDigits 2 b.toNat

/-- Bytes in quotes. -/
def quotedBytes (bytes : Bytes) : String :=
  let quote := quoteFor (bytes.map fun b => Char.ofNat b.toNat)
  String.ofList ('b' :: quote :: bytes.flatMap (escapeByteIn quote) ++ [quote])

end LogSearch.Text
