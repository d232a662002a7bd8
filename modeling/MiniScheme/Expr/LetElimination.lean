import MiniScheme.Expr.Basic

/-! # Local bindings as applications

Local bindings mean the application of a procedure with the bound names as parameters to the bound
expressions. `Expr.eliminateLets` replaces them so at every depth; literal values are left alone. -/

namespace MiniScheme

namespace Expr

mutual

/-- Replaces all local bindings in an expression by applications. -/
def eliminateLets : Expr → Expr
  | .num value => .num value
  | .bool value => .bool value
  | .str value => .str value
  | .var name => .var name
  | .lit value => .lit value
  | .prim op => .prim op
  | .cond test consequent alternative =>
      .cond (eliminateLets test) (eliminateLets consequent) (eliminateLets alternative)
  | .lambda params body => .lambda params (eliminateLetsAll body)
  | .app operator operands => .app (eliminateLets operator) (eliminateLetsAll operands)
  | .letIn bindings body =>
      .app (.lambda (bindings.map Prod.fst) (eliminateLetsAll body)) (eliminateLetsBound bindings)
  | .define name value => .define name (eliminateLets value)

/-- Replaces all local bindings in a list of expressions. -/
def eliminateLetsAll : List Expr → List Expr
  | [] => []
  | expr :: exprs => eliminateLets expr :: eliminateLetsAll exprs

/-- The bound expressions of bindings, with all local bindings inside them replaced. -/
def eliminateLetsBound : List (String × Expr) → List Expr
  | [] => []
  | (_, value) :: bindings => eliminateLets value :: eliminateLetsBound bindings

end

/-- Elimination in a list is elimination in each element. -/
@[simp] theorem eliminateLetsAll_eq_map (exprs : List Expr) :
    eliminateLetsAll exprs = exprs.map eliminateLets := by
  induction exprs with
  | nil => rfl
  | cons _ _ ih => simp only [eliminateLetsAll, List.map_cons, ih]

/-- Elimination in bindings is elimination in each bound expression. -/
@[simp] theorem eliminateLetsBound_eq_map (bindings : List (String × Expr)) :
    eliminateLetsBound bindings = bindings.map fun binding => eliminateLets binding.2 := by
  induction bindings with
  | nil => rfl
  | cons _ _ ih => simp only [eliminateLetsBound, List.map_cons, ih]

end Expr

namespace Program

/-- Replaces all local bindings of a program. -/
def eliminateLets (program : Program) : Program :=
  { forms := program.forms.map Expr.eliminateLets }

end Program

end MiniScheme
