/-! # String literals

A string is written between double quotes, with a backslash in front of a quote or a backslash and with
letters for a newline and a tab. Reading is more liberal than writing: a backslash before any character
but those two letters stands for that character. -/

namespace MiniScheme

namespace StringLiteral

/-- The character that a backslash and this character stand for. -/
def unescape : Char → Char
  | 'n' => '\n'
  | 't' => '\t'
  | other => other

/-- The written form of one character of a string. -/
def escape : Char → List Char
  | '"' => ['\\', '"']
  | '\\' => ['\\', '\\']
  | '\n' => ['\\', 'n']
  | '\t' => ['\\', 't']
  | other => [other]

/-- The literal that denotes a string. -/
def encode (content : String) : String :=
  "\"" ++ String.ofList (content.toList.flatMap escape) ++ "\""

end StringLiteral

end MiniScheme
