import MiniScheme.Text.Quoted

/-! # Structural outlines

An outline shows a tree by the labels of its nodes: `label(part, part)` for a node with parts,
`label` with named fields in braces for a record, and square brackets for a list. It is written on one
line, or with every part on a line of its own, indented by four blanks a level and followed by a comma. -/

namespace MiniScheme

/-- The outline of a tree. -/
inductive Outline where
  /-- A node that is written as it stands. -/
  | leaf (text : String)
  /-- A labelled node with its parts. -/
  | node (label : String) (parts : List Outline)
  /-- A labelled node with named fields. -/
  | record (label : String) (fields : List (String × Outline))
  /-- A list. -/
  | list (items : List Outline)

namespace Outline

/-- The outline of a string. -/
def ofString (content : String) : Outline :=
  .leaf (Quoted.encode content)

/-- The outline of a truth value. -/
def ofBool (value : Bool) : Outline :=
  .leaf (if value then "true" else "false")

mutual

/-- Writes an outline on one line. -/
def inline : Outline → String
  | .leaf text => text
  | .node label parts => label ++ "(" ++ ", ".intercalate (inlineAll parts) ++ ")"
  | .record label fields => label ++ " \x7b " ++ ", ".intercalate (inlineFields fields) ++ " \x7d"
  | .list items => "[" ++ ", ".intercalate (inlineAll items) ++ "]"

/-- Writes each of a list of outlines on one line. -/
def inlineAll : List Outline → List String
  | [] => []
  | outline :: outlines => outline.inline :: inlineAll outlines

/-- Writes each of a list of named fields on one line. -/
def inlineFields : List (String × Outline) → List String
  | [] => []
  | (name, value) :: fields => (name ++ ": " ++ value.inline) :: inlineFields fields

end

/-- The blanks in front of a line at a level of nesting. -/
def indentation (level : Nat) : String :=
  String.ofList (List.replicate (4 * level) ' ')

/-- Writes parts between brackets, each on a line of its own one level further in. -/
def block (opening closing : String) (level : Nat) (parts : List String) : String :=
  if parts.isEmpty then opening ++ closing
  else
    opening ++ "\n" ++
      String.join (parts.map fun part => indentation (level + 1) ++ part ++ ",\n") ++
      indentation level ++ closing

mutual

/-- Writes an outline whose first line stands at a level of nesting, one part a line. -/
def multiline (level : Nat) : Outline → String
  | .leaf text => text
  | .node label parts => label ++ block "(" ")" level (multilineAll (level + 1) parts)
  | .record label fields => label ++ block " \x7b" "\x7d" level (multilineFields (level + 1) fields)
  | .list items => block "[" "]" level (multilineAll (level + 1) items)

/-- Writes each of a list of outlines at a level of nesting. -/
def multilineAll (level : Nat) : List Outline → List String
  | [] => []
  | outline :: outlines => outline.multiline level :: multilineAll level outlines

/-- Writes each of a list of named fields at a level of nesting. -/
def multilineFields (level : Nat) : List (String × Outline) → List String
  | [] => []
  | (name, value) :: fields => (name ++ ": " ++ value.multiline level) :: multilineFields level fields

end

end Outline

end MiniScheme
