import Licensing.Text.Printable

/-! # Quoted text

How a message quotes a piece of input, so that every character of it can be seen.

The text stands between single quotes, or between double quotes if it holds a single quote and no
double quote. A backslash and the chosen quote are escaped with a backslash, line feed, carriage
return and tab have short escapes, and any other character that does not print is written with its
code point in hexadecimal: two digits below U+0100, four below U+10000, eight above.
-/

namespace Licensing.Text

/-- The last `width` hexadecimal digits of `n`, small letters. -/
def hexDigits (width n : Nat) : List Char :=
  let digits := Nat.toDigits 16 n
  List.replicate (width - digits.length) '0' ++ digits

/-- One character as it stands between two marks `quote`. -/
def quotedCharacter (quote c : Char) : List Char :=
  if c = quote || c = '\\' then ['\\', c]
  else if c = '\n' then ['\\', 'n']
  else if c = '\r' then ['\\', 'r']
  else if c = '\t' then ['\\', 't']
  else if isPrintable c then [c]
  else if c.toNat < 0x100 then '\\' :: 'x' :: hexDigits 2 c.toNat
  else if c.toNat < 0x10000 then '\\' :: 'u' :: hexDigits 4 c.toNat
  else '\\' :: 'U' :: hexDigits 8 c.toNat

/-- The quotation mark for a text: single, unless only a double one needs no escape. -/
def quoteFor (text : List Char) : Char :=
  if text.contains '\'' && !text.contains '"' then '"' else '\''

def quoted (text : String) : String :=
  let quote := quoteFor text.toList
  String.ofList (quote :: text.toList.flatMap (quotedCharacter quote) ++ [quote])

end Licensing.Text
