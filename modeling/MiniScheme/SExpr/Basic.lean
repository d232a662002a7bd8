import MiniScheme.Text.Outline

/-! # Symbolic expressions

The trees that the reader makes of a token sequence, before any meaning is given to them: words, string
literals and bracketed lists. A quote mark in front of a tree is read as a list of the word `quote` and
the tree. -/

namespace MiniScheme

/-- A symbolic expression. -/
inductive SExpr where
  /-- A word. -/
  | atom (text : String)
  /-- A string literal with its content. -/
  | str (content : String)
  /-- A bracketed list. -/
  | list (items : List SExpr)

namespace SExpr

instance : Inhabited SExpr := ⟨.list []⟩

/-- The reading of a quote mark in front of a tree. -/
def quoted (tree : SExpr) : SExpr :=
  .list [.atom "quote", tree]

/-- The reading of several quote marks in front of a tree. -/
def quotedTimes : Nat → SExpr → SExpr
  | 0, tree => tree
  | marks + 1, tree => quotedTimes marks tree.quoted

mutual

/-- The outline of a symbolic expression. -/
def outline : SExpr → Outline
  | .atom text => .node "Atom" [.ofString text]
  | .str content => .node "Str" [.ofString content]
  | .list items => .node "List" [.list (outlines items)]

/-- The outlines of a list of symbolic expressions. -/
def outlines : List SExpr → List Outline
  | [] => []
  | tree :: trees => tree.outline :: outlines trees

end

end SExpr

end MiniScheme
