import MiniScheme.Contour.Tree
import MiniScheme.Expr.LetElimination

/-! # Giving references their addresses

`LexExpr.address` gives every reference of a tree its lexical address, once: a tree with an address in it
is refused. A contour may declare neither a name twice nor the keyword of a primitive operator. A program
is addressed form by form after its local bindings are replaced; a definition at the top level is
addressed through its value, and its name is no contour. -/

namespace MiniScheme

/-- The first name of a list that stands in it before, if any. -/
def firstRepeated? (names : List String) : Option String :=
  go [] names
where
  /-- The first name that repeats one of the given names or one before it. -/
  go (seen : List String) : List String → Option String
    | [] => none
    | name :: names => if name ∈ seen then some name else go (name :: seen) names

/-- Accepts a contour in which no name is repeated and none is the keyword of a primitive operator. -/
def checkContour (names : List String) : Except ScopeError Unit :=
  match firstRepeated? names with
  | some name => .error (.duplicateParameter name)
  | none =>
      match names.find? fun name => (Primitive.ofKeyword? name).isSome with
      | some name => .error (.primitiveParameter name)
      | none => .ok ()

namespace LexExpr

mutual

/-- Gives every reference of a tree its address, where the given declarations are visible. -/
def addressFrom (visible : List Address) : LexExpr → Except ScopeError LexExpr
  | .num value => .ok (.num value)
  | .bool value => .ok (.bool value)
  | .str value => .ok (.str value)
  | .lit value => .ok (.lit value)
  | .var name => .ok (.ref (.resolve name visible))
  | .ref reference => .error (.malformed (.addressed reference))
  | .cond test consequent alternative => do
      let test ← addressFrom visible test
      let consequent ← addressFrom visible consequent
      return .cond test consequent (← addressFrom visible alternative)
  | .lambda params body => do
      checkContour params
      return .lambda params (← addressAllFrom (Address.crossContour params visible) body)
  | .app operator operands => do
      let operator ← addressFrom visible operator
      return .app operator (← addressAllFrom visible operands)

/-- Gives every reference of a list of trees its address, from left to right. -/
def addressAllFrom (visible : List Address) : List LexExpr → Except ScopeError (List LexExpr)
  | [] => .ok []
  | tree :: trees => do
      let tree ← addressFrom visible tree
      return tree :: (← addressAllFrom visible trees)

end

/-- Gives every reference of a tree its lexical address. -/
def address (tree : LexExpr) : Except ScopeError LexExpr :=
  tree.addressFrom []

end LexExpr

/-- A top-level form with lexical addresses. -/
inductive AddressedForm where
  /-- A definition of a global name. -/
  | define (name : String) (value : LexExpr)
  /-- An expression. -/
  | expr (tree : LexExpr)

namespace AddressedForm

/-- The addressed form of a top-level form. -/
def ofExpr (form : Expr) : Except ScopeError AddressedForm :=
  match form.eliminateLets with
  | .define name value => do return .define name (← (← LexExpr.ofExpr value).address)
  | other => do return .expr (← (← LexExpr.ofExpr other).address)

/-- The text of an addressed form. -/
def text : AddressedForm → String
  | .define name value => "(define " ++ name ++ " " ++ value.text ++ ")"
  | .expr tree => tree.text

instance : ToString AddressedForm := ⟨text⟩

end AddressedForm

/-- The addressed forms of a program, in order. -/
def Program.address (program : Program) : Except ScopeError (List AddressedForm) :=
  program.forms.mapM AddressedForm.ofExpr

end MiniScheme
