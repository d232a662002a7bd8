/-! # JSON text

JSON documents and their text with an indentation of two blanks a level. The members of an object keep
their order, numbers come with their text, and empty arrays and objects are written without a line
break. -/

namespace MiniScheme

/-- A JSON document. -/
inductive Json where
  /-- The null value. -/
  | null
  /-- A truth value. -/
  | bool (value : Bool)
  /-- A number with its text. -/
  | num (text : String)
  /-- A string. -/
  | str (content : String)
  /-- An array. -/
  | arr (items : List Json)
  /-- An object with its members in order. -/
  | obj (members : List (String × Json))

namespace Json

/-- The two lower-case hexadecimal digits of a number below 256. -/
def twoHexDigits (value : Nat) : String :=
  String.ofList ((if value < 16 then ['0'] else []) ++ Nat.toDigits 16 value)

/-- The form of one character inside the quotes. -/
def escape (c : Char) : String :=
  if c = '"' then "\\\""
  else if c = '\\' then "\\\\"
  else if c = '\x08' then "\\b"
  else if c = '\x0c' then "\\f"
  else if c = '\n' then "\\n"
  else if c = '\r' then "\\r"
  else if c = '\t' then "\\t"
  else if c.toNat < 0x20 then "\\u00" ++ twoHexDigits c.toNat
  else c.toString

/-- The text of a string. -/
def quote (content : String) : String :=
  "\"" ++ String.join (content.toList.map escape) ++ "\""

/-- The start of a line at a level of nesting. -/
def lineStart (level : Nat) : String :=
  "\n" ++ String.ofList (List.replicate (2 * level) ' ')

/-- Writes parts between brackets, each on a line of its own one level further in. -/
def block (opening closing : String) (level : Nat) (parts : List String) : String :=
  if parts.isEmpty then opening ++ closing
  else
    opening ++ ",".intercalate (parts.map fun part => lineStart (level + 1) ++ part) ++
      lineStart level ++ closing

mutual

/-- The text of a document whose first line stands at a level of nesting. -/
def textAt (level : Nat) : Json → String
  | .null => "null"
  | .bool value => if value then "true" else "false"
  | .num text => text
  | .str content => quote content
  | .arr items => block "[" "]" level (textsAt (level + 1) items)
  | .obj members => block "\x7b" "\x7d" level (memberTextsAt (level + 1) members)

/-- The texts of the items of an array. -/
def textsAt (level : Nat) : List Json → List String
  | [] => []
  | item :: items => item.textAt level :: textsAt level items

/-- The texts of the members of an object. -/
def memberTextsAt (level : Nat) : List (String × Json) → List String
  | [] => []
  | (name, value) :: members =>
      (quote name ++ ": " ++ value.textAt level) :: memberTextsAt level members

end

/-- The text of a document. -/
def text (document : Json) : String :=
  document.textAt 0

end Json

end MiniScheme
