import MiniScheme.Expr.Basic

/-! # Substitution

A substitution replaces several names at once. Under a declaration of a name it leaves that name alone,
but it does not rename: a replacement that refers to a name declared around its new place is captured.
Where the declared names of a tree differ from all names free in the replacements, nothing can be
captured. -/

namespace MiniScheme

/-- Replacements for names. If a name has several, the first counts. -/
abbrev Substitution := List (String × Expr)

namespace Substitution

/-- The substitution that replaces each of the names by the expression at its position. -/
def ofLists (names : List String) (replacements : List Expr) : Substitution :=
  names.zip replacements

/-- The substitution that leaves the given names alone. -/
def without (substitution : Substitution) (names : List String) : Substitution :=
  substitution.filter fun entry => !names.contains entry.1

/-- What becomes of a reference. -/
def apply (substitution : Substitution) (name : String) : Expr :=
  (substitution.lookup name).getD (.var name)

end Substitution

namespace Expr

mutual

/-- Replaces the free references in an expression. -/
def subst (substitution : Substitution) : Expr → Expr
  | .num value => .num value
  | .bool value => .bool value
  | .str value => .str value
  | .var name => substitution.apply name
  | .lit value => .lit value
  | .prim op => .prim op
  | .cond test consequent alternative =>
      .cond (subst substitution test) (subst substitution consequent)
        (subst substitution alternative)
  | .lambda params body => .lambda params (substAll (substitution.without params) body)
  | .app operator operands => .app (subst substitution operator) (substAll substitution operands)
  | .letIn bindings body =>
      .letIn (substBindings substitution bindings)
        (substAll (substitution.without (bindings.map Prod.fst)) body)
  | .define name value => .define name (subst substitution value)

/-- Replaces the free references in a list of expressions. -/
def substAll (substitution : Substitution) : List Expr → List Expr
  | [] => []
  | expr :: exprs => subst substitution expr :: substAll substitution exprs

/-- Replaces the free references in the bound expressions of bindings. -/
def substBindings (substitution : Substitution) : List (String × Expr) → List (String × Expr)
  | [] => []
  | (name, value) :: bindings =>
      (name, subst substitution value) :: substBindings substitution bindings

end

/-- Substitution in a list is substitution in each element. -/
@[simp] theorem substAll_eq_map (substitution : Substitution) (exprs : List Expr) :
    substAll substitution exprs = exprs.map (subst substitution) := by
  induction exprs with
  | nil => rfl
  | cons _ _ ih => simp only [substAll, List.map_cons, ih]

/-- Substitution in bindings keeps the names and changes each bound expression. -/
@[simp] theorem substBindings_eq_map (substitution : Substitution)
    (bindings : List (String × Expr)) :
    substBindings substitution bindings =
      bindings.map fun binding => (binding.1, subst substitution binding.2) := by
  induction bindings with
  | nil => rfl
  | cons _ _ ih => simp only [substBindings, List.map_cons, ih]

end Expr

end MiniScheme
