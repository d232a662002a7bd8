import MiniScheme.Contour.Error
import MiniScheme.Expr.Text

/-! # Addressable trees

Expressions without local bindings and definitions, in which a reference may carry its lexical address.
A primitive operator is a reference to its keyword: no contour may declare a keyword, so it is always
free. -/

namespace MiniScheme

/-- An addressable tree. -/
inductive LexExpr where
  /-- A number. -/
  | num (value : Float)
  /-- A truth value. -/
  | bool (value : Bool)
  /-- A string. -/
  | str (value : String)
  /-- A literal value. -/
  | lit (value : Value)
  /-- A reference without an address. -/
  | var (name : String)
  /-- A reference with its address. -/
  | ref (reference : Reference)
  /-- A conditional. -/
  | cond (test consequent alternative : LexExpr)
  /-- A procedure with its contour and the forms of its body. -/
  | lambda (params : List String) (body : List LexExpr)
  /-- An application of an operator to operands. -/
  | app (operator : LexExpr) (operands : List LexExpr)

instance : Inhabited LexExpr := ⟨.bool false⟩

namespace LexExpr

mutual

/-- The addressable tree of an expression. -/
def ofExpr : Expr → Except ScopeError LexExpr
  | .num value => .ok (.num value)
  | .bool value => .ok (.bool value)
  | .str value => .ok (.str value)
  | .lit value => .ok (.lit value)
  | .var name => .ok (.var name)
  | .prim op => .ok (.var op.keyword)
  | .cond test consequent alternative => do
      let test ← ofExpr test
      let consequent ← ofExpr consequent
      return .cond test consequent (← ofExpr alternative)
  | .lambda params body => do return .lambda params (← ofExprs body)
  | .app operator operands => do
      let operator ← ofExpr operator
      return .app operator (← ofExprs operands)
  | .letIn _ _ => .error (.malformed .letForm)
  | .define name _ => .error (.malformed (.define name))

/-- The addressable trees of a list of expressions. -/
def ofExprs : List Expr → Except ScopeError (List LexExpr)
  | [] => .ok []
  | expr :: exprs => do
      let tree ← ofExpr expr
      return tree :: (← ofExprs exprs)

end

mutual

/-- The text of an addressable tree. -/
def text : LexExpr → String
  | .num value => (Expr.num value).text
  | .bool value => (Expr.bool value).text
  | .str value => (Expr.str value).text
  | .lit value => (Expr.lit value).text
  | .var name => name
  | .ref reference => reference.text
  | .cond test consequent alternative =>
      "(if " ++ test.text ++ " " ++ consequent.text ++ " " ++ alternative.text ++ ")"
  | .lambda params body =>
      "(" ++ spaced (("lambda (" ++ spaced params ++ ")") :: texts body) ++ ")"
  | .app operator operands => "(" ++ spaced (operator.text :: texts operands) ++ ")"

/-- The texts of a list of addressable trees. -/
def texts : List LexExpr → List String
  | [] => []
  | tree :: trees => tree.text :: texts trees

end

instance : ToString LexExpr := ⟨text⟩

/-- Writing a list of trees writes each of them. -/
@[simp] theorem texts_eq_map (trees : List LexExpr) : texts trees = trees.map text := by
  induction trees with
  | nil => rfl
  | cons _ _ ih => simp only [texts, List.map_cons, ih]

end LexExpr

end MiniScheme
