/-! # Primitive operators

The operators known to the language, each with the keyword that denotes it in source text. A keyword
denotes exactly one operator, so reading a keyword and writing an operator are inverse. -/

namespace MiniScheme

/-- The primitive operators. -/
inductive Primitive where
  /-- Sum of numbers. -/
  | add
  /-- Difference of numbers, or negation of one. -/
  | sub
  /-- Product of numbers. -/
  | mul
  /-- Quotient of numbers. -/
  | div
  /-- Less-than on two numbers. -/
  | lt
  /-- Greater-than on two numbers. -/
  | gt
  /-- Equality of two numbers. -/
  | numEq
  /-- Logical negation of any value. -/
  | not
  /-- Conjunction of two booleans. -/
  | and
  /-- Disjunction of two booleans. -/
  | or
  /-- Equality of two atoms. -/
  | eq
  /-- Equality of two strings. -/
  | stringEq
  /-- Pair construction. -/
  | cons
  /-- First component of a pair. -/
  | car
  /-- Second component of a pair. -/
  | cdr
  /-- List construction. -/
  | list
  /-- Recognises pairs. -/
  | isPair
  /-- Recognises proper lists. -/
  | isList
  /-- Recognises numbers. -/
  | isNumber
  /-- Recognises booleans. -/
  | isBoolean
  /-- Recognises symbols. -/
  | isSymbol
  /-- Recognises strings. -/
  | isString
  deriving DecidableEq, Repr

namespace Primitive

/-- Every primitive operator. -/
def all : List Primitive :=
  [.add, .sub, .mul, .div, .lt, .gt, .numEq, .not, .and, .or, .eq, .stringEq, .cons, .car, .cdr,
    .list, .isPair, .isList, .isNumber, .isBoolean, .isSymbol, .isString]

/-- The word that denotes an operator in source text. -/
def keyword : Primitive → String
  | .add => "+"
  | .sub => "-"
  | .mul => "*"
  | .div => "/"
  | .lt => "<"
  | .gt => ">"
  | .numEq => "="
  | .not => "not"
  | .and => "and"
  | .or => "or"
  | .eq => "eq?"
  | .stringEq => "string=?"
  | .cons => "cons"
  | .car => "car"
  | .cdr => "cdr"
  | .list => "list"
  | .isPair => "pair?"
  | .isList => "list?"
  | .isNumber => "number?"
  | .isBoolean => "boolean?"
  | .isSymbol => "symbol?"
  | .isString => "string?"

/-- The operator that a word denotes, if any. -/
def ofKeyword? (word : String) : Option Primitive :=
  all.find? fun op => op.keyword == word

/-- The list of operators leaves none out. -/
theorem mem_all (op : Primitive) : op ∈ all := by
  cases op <;> decide

/-- Reading the keyword of an operator gives the operator. -/
@[simp] theorem ofKeyword?_keyword (op : Primitive) : ofKeyword? op.keyword = some op := by
  cases op <;> decide

/-- A word denotes an operator exactly when it is that operator's keyword. -/
theorem ofKeyword?_eq_some_iff {word : String} {op : Primitive} :
    ofKeyword? word = some op ↔ op.keyword = word := by
  constructor
  · intro found
    simpa using List.find?_some found
  · rintro rfl
    exact ofKeyword?_keyword op

/-- The name under which structural outlines show an operator. -/
def label : Primitive → String
  | .add => "Add"
  | .sub => "Sub"
  | .mul => "Mul"
  | .div => "Div"
  | .lt => "Lt"
  | .gt => "Gt"
  | .numEq => "NumEq"
  | .not => "Not"
  | .and => "And"
  | .or => "Or"
  | .eq => "Eq"
  | .stringEq => "StringEq"
  | .cons => "Cons"
  | .car => "Car"
  | .cdr => "Cdr"
  | .list => "List"
  | .isPair => "IsPair"
  | .isList => "IsList"
  | .isNumber => "IsNumber"
  | .isBoolean => "IsBoolean"
  | .isSymbol => "IsSymbol"
  | .isString => "IsString"

end Primitive

end MiniScheme
