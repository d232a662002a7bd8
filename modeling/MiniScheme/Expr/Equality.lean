import MiniScheme.Expr.Basic

/-! # Comparing trees

Two expressions, or two values, are the same tree when they have the same shape, the same names and
texts, and numerically equal numbers: a negative zero equals zero, and no tree with a NaN equals
itself. -/

namespace MiniScheme

mutual

/-- Whether two expressions are the same tree. -/
def Expr.same : Expr → Expr → Bool
  | .num left, .num right => left == right
  | .bool left, .bool right => left == right
  | .str left, .str right => left == right
  | .var left, .var right => left == right
  | .lit left, .lit right => Value.same left right
  | .prim left, .prim right => left == right
  | .cond test consequent alternative, .cond test' consequent' alternative' =>
      Expr.same test test' && Expr.same consequent consequent' &&
        Expr.same alternative alternative'
  | .lambda params body, .lambda params' body' => params == params' && Expr.sameAll body body'
  | .app operator operands, .app operator' operands' =>
      Expr.same operator operator' && Expr.sameAll operands operands'
  | .letIn bindings body, .letIn bindings' body' =>
      Expr.sameBindings bindings bindings' && Expr.sameAll body body'
  | .define name value, .define name' value' => name == name' && Expr.same value value'
  | _, _ => false

/-- Whether two lists of expressions are the same trees in the same order. -/
def Expr.sameAll : List Expr → List Expr → Bool
  | [], [] => true
  | left :: lefts, right :: rights => Expr.same left right && Expr.sameAll lefts rights
  | _, _ => false

/-- Whether two lists of bindings give the same names the same trees in the same order. -/
def Expr.sameBindings : List (String × Expr) → List (String × Expr) → Bool
  | [], [] => true
  | (name, value) :: bindings, (name', value') :: bindings' =>
      name == name' && Expr.same value value' && Expr.sameBindings bindings bindings'
  | _, _ => false

/-- Whether two values are the same tree. -/
def Value.same : Value → Value → Bool
  | .number left, .number right => left == right
  | .bool left, .bool right => left == right
  | .string left, .string right => left == right
  | .symbol left, .symbol right => left == right
  | .nil, .nil => true
  | .cons car cdr, .cons car' cdr' => Value.same car car' && Value.same cdr cdr'
  | .prim left, .prim right => left == right
  | .closure params body, .closure params' body' => params == params' && Expr.sameAll body body'
  | _, _ => false

end

instance : BEq Expr := ⟨Expr.same⟩

instance : BEq Value := ⟨Value.same⟩

end MiniScheme
