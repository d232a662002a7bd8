import MiniScheme.Expr.Basic

/-! # Immediate sub-expressions

`Expr.children` lists the immediate sub-expressions of an expression in evaluation order, and
`Expr.mapChildrenM` rebuilds an expression from what an action makes of each of them, in the same
order. Names are kept, and literal values count as atoms. -/

namespace MiniScheme

namespace Expr

/-- The immediate sub-expressions, in evaluation order. -/
def children : Expr → List Expr
  | .cond test consequent alternative => [test, consequent, alternative]
  | .lambda _ body => body
  | .app operator operands => operator :: operands
  | .letIn bindings body => bindings.map Prod.snd ++ body
  | .define _ value => [value]
  | _ => []

/-- Rebuilds an expression from the results of an action on each immediate sub-expression, run in
evaluation order. -/
def mapChildrenM {m : Type → Type} [Monad m] (action : Expr → m Expr) : Expr → m Expr
  | .cond test consequent alternative => do
      return .cond (← action test) (← action consequent) (← action alternative)
  | .lambda params body => do
      return .lambda params (← body.mapM action)
  | .app operator operands => do
      return .app (← action operator) (← operands.mapM action)
  | .letIn bindings body => do
      let bindings ← bindings.mapM fun (name, value) => do return (name, ← action value)
      return .letIn bindings (← body.mapM action)
  | .define name value => do
      return .define name (← action value)
  | atom => pure atom

/-- Rebuilds an expression with a function applied to each immediate sub-expression. -/
def mapChildren (f : Expr → Expr) (expr : Expr) : Expr :=
  Id.run (expr.mapChildrenM fun child => pure (f child))

mutual

/-- The height of the tree; an atom has height 1. -/
def height : Expr → Nat
  | .cond test consequent alternative =>
      1 + max test.height (max consequent.height alternative.height)
  | .lambda _ body => 1 + heightAll body
  | .app operator operands => 1 + max operator.height (heightAll operands)
  | .letIn bindings body => 1 + max (heightBindings bindings) (heightAll body)
  | .define _ value => 1 + value.height
  | _ => 1

/-- The greatest height in a list of expressions, 0 if there is none. -/
def heightAll : List Expr → Nat
  | [] => 0
  | expr :: exprs => max expr.height (heightAll exprs)

/-- The greatest height among the bound expressions, 0 if there is none. -/
def heightBindings : List (String × Expr) → Nat
  | [] => 0
  | (_, value) :: bindings => max value.height (heightBindings bindings)

end

end Expr

end MiniScheme
