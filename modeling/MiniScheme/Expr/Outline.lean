import MiniScheme.Decimal.Layout
import MiniScheme.Expr.Basic
import MiniScheme.Text.Outline

/-! # Outlines of programs

Shows every node of a program by the label of its kind, with literal values and the bodies of procedure
values included. -/

namespace MiniScheme

/-- Numbers in outlines keep a point, and have an exponent outside of the magnitudes from 0.0001 up to
ten to the sixteenth. -/
def Decimal.Layout.outlined : Decimal.Layout :=
  { isPositional := fun leading => -4 ≤ leading && leading < 16
    pointZero := true
    plusSign := false
    tie := .up }

namespace Outline

/-- The outline of a number. -/
def ofNumber (value : Float) : Outline :=
  .leaf (Decimal.Layout.outlined.render value)

/-- The outline of a declared name. -/
def ofDeclaration (name : String) : Outline :=
  .record "VarDecl" [("name", .ofString name)]

/-- The outline of a list of declared names. -/
def ofDeclarations (names : List String) : Outline :=
  .list (names.map ofDeclaration)

/-- The outline of a primitive operator. -/
def ofPrimitive (op : Primitive) : Outline :=
  .node "Prim" [.leaf op.label]

end Outline

mutual

/-- The outline of an expression. -/
def Expr.outline : Expr → Outline
  | .num value => .node "Num" [.ofNumber value]
  | .bool value => .node "Bool" [.ofBool value]
  | .str value => .node "Str" [.ofString value]
  | .var name => .node "Var" [.ofString name]
  | .lit value => .node "Lit" [value.outline]
  | .prim op => .ofPrimitive op
  | .cond test consequent alternative =>
      .record "If"
        [("test", test.outline), ("then", consequent.outline), ("alt", alternative.outline)]
  | .lambda params body =>
      .record "Proc" [("params", .ofDeclarations params), ("body", .list (Expr.outlines body))]
  | .app operator operands =>
      .record "App" [("rator", operator.outline), ("rands", .list (Expr.outlines operands))]
  | .letIn bindings body =>
      .record "Let"
        [("bindings", .list (Expr.bindingOutlines bindings)), ("body", .list (Expr.outlines body))]
  | .define name value => .record "Define" [("var", .ofDeclaration name), ("val", value.outline)]

/-- The outlines of a list of expressions. -/
def Expr.outlines : List Expr → List Outline
  | [] => []
  | expr :: exprs => expr.outline :: Expr.outlines exprs

/-- The outlines of a list of bindings. -/
def Expr.bindingOutlines : List (String × Expr) → List Outline
  | [] => []
  | (name, value) :: bindings =>
      .record "Binding" [("var", .ofDeclaration name), ("val", value.outline)] ::
        Expr.bindingOutlines bindings

/-- The outline of a value. -/
def Value.outline : Value → Outline
  | .number value => .node "Number" [.ofNumber value]
  | .bool value => .node "Bool" [.ofBool value]
  | .string value => .node "Str" [.ofString value]
  | .symbol name => .node "Symbol" [.ofString name]
  | .nil => .leaf "Empty"
  | .cons car cdr => .node "Pair" [car.outline, cdr.outline]
  | .prim op => .ofPrimitive op
  | .closure params body =>
      .node "Closure"
        [.record "Closure"
          [("params", .ofDeclarations params), ("body", .list (Expr.outlines body))]]

end

/-- The outline of a program. -/
def Program.outline (program : Program) : Outline :=
  .record "Program" [("exps", .list (program.forms.map Expr.outline))]

end MiniScheme
