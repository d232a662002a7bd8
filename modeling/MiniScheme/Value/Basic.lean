import MiniScheme.Expr.Basic

/-! # Operations on values

Lists are chains of pairs that end in the empty list. Every value but false counts as true. A value
has an expression that evaluates to it: atoms and procedures become the corresponding expression
form, and symbols, lists and pairs are carried literally. -/

namespace MiniScheme

/-- The kinds of values that error messages tell apart. -/
inductive Value.Kind where
  /-- Numbers. -/
  | number
  /-- Truth values. -/
  | boolean
  /-- Strings. -/
  | string
  /-- Symbols. -/
  | symbol
  /-- The empty list. -/
  | emptyList
  /-- Pairs. -/
  | pair
  /-- Primitive operators. -/
  | primitive
  /-- Procedures with parameters and a body. -/
  | procedure
  deriving DecidableEq, Repr

namespace Value

/-- The word for a kind of values. -/
def Kind.word : Kind → String
  | .number => "number"
  | .boolean => "boolean"
  | .string => "string"
  | .symbol => "symbol"
  | .emptyList => "empty list"
  | .pair => "pair"
  | .primitive => "primitive"
  | .procedure => "procedure"

/-- The proper list of the given values. -/
def ofList (items : List Value) : Value :=
  items.foldr .cons .nil

/-- Whether a conditional takes its first branch on the value. -/
def isTrue : Value → Bool
  | .bool value => value
  | _ => true

/-- Whether the value is a proper list. -/
def isList : Value → Bool
  | .nil => true
  | .cons _ cdr => cdr.isList
  | _ => false

/-- The kind of a value. -/
def kind : Value → Kind
  | .number _ => .number
  | .bool _ => .boolean
  | .string _ => .string
  | .symbol _ => .symbol
  | .nil => .emptyList
  | .cons _ _ => .pair
  | .prim _ => .primitive
  | .closure _ _ => .procedure

/-- The expression that evaluates to the value. -/
def toExpr : Value → Expr
  | .number value => .num value
  | .bool value => .bool value
  | .string value => .str value
  | .prim op => .prim op
  | .closure params body => .lambda params body
  | value => .lit value

/-- A list built from values is a proper list. -/
@[simp] theorem isList_ofList (items : List Value) : (ofList items).isList = true := by
  induction items with
  | nil => rfl
  | cons _ _ ih => exact ih

/-- Only false counts as false. -/
theorem isTrue_eq_false_iff {value : Value} : value.isTrue = false ↔ value = .bool false := by
  cases value <;> simp [isTrue]

end Value

end MiniScheme
