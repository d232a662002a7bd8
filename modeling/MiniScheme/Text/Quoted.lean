import MiniScheme.Text.Printable

/-! # Quoted text

In outlines a string stands between double quotes in a form that shows every character: quotes,
backslashes and the usual control characters have short escapes, and any other character that is not
printable is written as its code point in hexadecimal. -/

namespace MiniScheme

namespace Quoted

/-- The hexadecimal digits of a number, in lower case. -/
def hexText (value : Nat) : String :=
  String.ofList (Nat.toDigits 16 value)

/-- The form of one character inside the quotes. -/
def escape (c : Char) : String :=
  if c = '"' then "\\\""
  else if c = '\\' then "\\\\"
  else if c = '\n' then "\\n"
  else if c = '\r' then "\\r"
  else if c = '\t' then "\\t"
  else if c = '\x00' then "\\0"
  else if isPrintable c then c.toString
  else "\\u\x7b" ++ hexText c.toNat ++ "\x7d"

/-- A string between quotes. -/
def encode (content : String) : String :=
  "\"" ++ String.join (content.toList.map escape) ++ "\""

end Quoted

end MiniScheme
