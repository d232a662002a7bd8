import MiniScheme.Decimal.Layout
import MiniScheme.Expr.Basic
import MiniScheme.Text.Json

/-! # Programs as JSON documents

Every node of a program is an object with one member, named for the kind of the node. Numbers that are not
finite have no JSON number and are written as null. -/

namespace MiniScheme

/-- Numbers in JSON documents keep a point, and have a signed exponent outside of the magnitudes from
0.00001 up to ten to the sixteenth. -/
def Decimal.Layout.json : Decimal.Layout :=
  { isPositional := fun leading => -5 ≤ leading && leading < 16
    pointZero := true
    plusSign := true
    tie := .toEven }

namespace Json

/-- A node with the label of its kind. -/
def node (label : String) (content : Json) : Json :=
  .obj [(label, content)]

/-- A number, null if it is not finite. -/
def ofNumber (value : Float) : Json :=
  if value.isFinite then .num (Decimal.Layout.json.render value) else .null

/-- A declared name. -/
def ofDeclaration (name : String) : Json :=
  .obj [("name", .str name)]

/-- A list of declared names. -/
def ofDeclarations (names : List String) : Json :=
  .arr (names.map ofDeclaration)

/-- A primitive operator. -/
def ofPrimitive (op : Primitive) : Json :=
  node "Prim" (.str op.label)

end Json

mutual

/-- An expression as a JSON document. -/
def Expr.toJson : Expr → Json
  | .num value => .node "Num" (.ofNumber value)
  | .bool value => .node "Bool" (.bool value)
  | .str value => .node "Str" (.str value)
  | .var name => .node "Var" (.str name)
  | .lit value => .node "Lit" value.toJson
  | .prim op => .ofPrimitive op
  | .cond test consequent alternative =>
      .node "If"
        (.obj [("test", test.toJson), ("then", consequent.toJson), ("alt", alternative.toJson)])
  | .lambda params body =>
      .node "Proc" (.obj [("params", .ofDeclarations params), ("body", .arr (Expr.toJsons body))])
  | .app operator operands =>
      .node "App" (.obj [("rator", operator.toJson), ("rands", .arr (Expr.toJsons operands))])
  | .letIn bindings body =>
      .node "Let"
        (.obj [("bindings", .arr (Expr.bindingsToJson bindings)), ("body", .arr (Expr.toJsons body))])
  | .define name value =>
      .node "Define" (.obj [("var", .ofDeclaration name), ("val", value.toJson)])

/-- A list of expressions as JSON documents. -/
def Expr.toJsons : List Expr → List Json
  | [] => []
  | expr :: exprs => expr.toJson :: Expr.toJsons exprs

/-- A list of bindings as JSON documents. -/
def Expr.bindingsToJson : List (String × Expr) → List Json
  | [] => []
  | (name, value) :: bindings =>
      .obj [("var", .ofDeclaration name), ("val", value.toJson)] :: Expr.bindingsToJson bindings

/-- A value as a JSON document. -/
def Value.toJson : Value → Json
  | .number value => .node "Number" (.ofNumber value)
  | .bool value => .node "Bool" (.bool value)
  | .string value => .node "Str" (.str value)
  | .symbol name => .node "Symbol" (.str name)
  | .nil => .str "Empty"
  | .cons car cdr => .node "Pair" (.arr [car.toJson, cdr.toJson])
  | .prim op => .ofPrimitive op
  | .closure params body =>
      .node "Closure" (.obj [("params", .ofDeclarations params), ("body", .arr (Expr.toJsons body))])

end

/-- A program as a JSON document. -/
def Program.toJson (program : Program) : Json :=
  .obj [("exps", .arr (program.forms.map Expr.toJson))]

end MiniScheme
