import MiniScheme.Expr.Basic

/-! # Names in expressions

Procedures and local bindings declare names; a definition names a global and declares nothing locally.
A reference is free when no procedure or local binding around it declares its name. None of the queries
looks into literal values. Lists of names may repeat a name. -/

namespace MiniScheme

namespace Expr

mutual

/-- Whether a name occurs free in an expression; here a definition hides the name that it defines. -/
def occursFree (name : String) : Expr → Bool
  | .var other => other == name
  | .num _ | .bool _ | .str _ | .lit _ | .prim _ => false
  | .cond test consequent alternative =>
      occursFree name test || occursFree name consequent || occursFree name alternative
  | .lambda params body => !params.contains name && occursFreeAny name body
  | .app operator operands => occursFree name operator || occursFreeAny name operands
  | .letIn bindings body =>
      occursFreeBound name bindings ||
        (!(bindings.map Prod.fst).contains name && occursFreeAny name body)
  | .define target value => target != name && occursFree name value

/-- Whether a name occurs free in some expression of a list. -/
def occursFreeAny (name : String) : List Expr → Bool
  | [] => false
  | expr :: exprs => occursFree name expr || occursFreeAny name exprs

/-- Whether a name occurs free in the bound expression of some binding. -/
def occursFreeBound (name : String) : List (String × Expr) → Bool
  | [] => false
  | (_, value) :: bindings => occursFree name value || occursFreeBound name bindings

end

mutual

/-- The names that an expression refers to without declaring them. -/
def freeNames : Expr → List String
  | .var name => [name]
  | .num _ | .bool _ | .str _ | .lit _ | .prim _ => []
  | .cond test consequent alternative =>
      freeNames test ++ freeNames consequent ++ freeNames alternative
  | .lambda params body => (freeNamesAll body).filter fun name => !params.contains name
  | .app operator operands => freeNames operator ++ freeNamesAll operands
  | .letIn bindings body =>
      freeNamesBound bindings ++
        (freeNamesAll body).filter fun name => !(bindings.map Prod.fst).contains name
  | .define _ value => freeNames value

/-- The names that some expression of a list refers to without declaring them. -/
def freeNamesAll : List Expr → List String
  | [] => []
  | expr :: exprs => freeNames expr ++ freeNamesAll exprs

/-- The names that the bound expression of some binding refers to without declaring them. -/
def freeNamesBound : List (String × Expr) → List String
  | [] => []
  | (_, value) :: bindings => freeNames value ++ freeNamesBound bindings

end

mutual

/-- The names that procedures and local bindings declare, one for each declaration, outer declarations
before inner ones and left before right. -/
def boundNames : Expr → List String
  | .num _ | .bool _ | .str _ | .var _ | .lit _ | .prim _ => []
  | .cond test consequent alternative =>
      boundNames test ++ boundNames consequent ++ boundNames alternative
  | .lambda params body => params ++ boundNamesAll body
  | .app operator operands => boundNames operator ++ boundNamesAll operands
  | .letIn bindings body =>
      bindings.map Prod.fst ++ boundNamesBound bindings ++ boundNamesAll body
  | .define _ value => boundNames value

/-- The names that the expressions of a list declare. -/
def boundNamesAll : List Expr → List String
  | [] => []
  | expr :: exprs => boundNames expr ++ boundNamesAll exprs

/-- The names that the bound expressions of some bindings declare. -/
def boundNamesBound : List (String × Expr) → List String
  | [] => []
  | (_, value) :: bindings => boundNames value ++ boundNamesBound bindings

end

mutual

/-- Every name that an expression mentions: references, declared names and defined names. -/
def allNames : Expr → List String
  | .var name => [name]
  | .num _ | .bool _ | .str _ | .lit _ | .prim _ => []
  | .cond test consequent alternative =>
      allNames test ++ allNames consequent ++ allNames alternative
  | .lambda params body => params ++ allNamesAll body
  | .app operator operands => allNames operator ++ allNamesAll operands
  | .letIn bindings body => bindings.map Prod.fst ++ allNamesBound bindings ++ allNamesAll body
  | .define target value => target :: allNames value

/-- Every name that the expressions of a list mention. -/
def allNamesAll : List Expr → List String
  | [] => []
  | expr :: exprs => allNames expr ++ allNamesAll exprs

/-- Every name that the bound expressions of some bindings mention. -/
def allNamesBound : List (String × Expr) → List String
  | [] => []
  | (_, value) :: bindings => allNames value ++ allNamesBound bindings

end

/-! ## Queries on lists -/

/-- A name occurs free in a list when it does in some element. -/
@[simp] theorem occursFreeAny_eq_any (name : String) (exprs : List Expr) :
    occursFreeAny name exprs = exprs.any (occursFree name) := by
  induction exprs with
  | nil => rfl
  | cons _ _ ih => simp only [occursFreeAny, List.any_cons, ih]

/-- A name occurs free in bound expressions when it does in some of them. -/
@[simp] theorem occursFreeBound_eq_any (name : String) (bindings : List (String × Expr)) :
    occursFreeBound name bindings = bindings.any fun binding => occursFree name binding.2 := by
  induction bindings with
  | nil => rfl
  | cons _ _ ih => simp only [occursFreeBound, List.any_cons, ih]

/-- The free names of a list are those of its elements. -/
@[simp] theorem freeNamesAll_eq_flatMap (exprs : List Expr) :
    freeNamesAll exprs = exprs.flatMap freeNames := by
  induction exprs with
  | nil => rfl
  | cons _ _ ih => simp only [freeNamesAll, List.flatMap_cons, ih]

/-- The free names of bindings are those of the bound expressions. -/
@[simp] theorem freeNamesBound_eq_flatMap (bindings : List (String × Expr)) :
    freeNamesBound bindings = bindings.flatMap fun binding => freeNames binding.2 := by
  induction bindings with
  | nil => rfl
  | cons _ _ ih => simp only [freeNamesBound, List.flatMap_cons, ih]

/-- The declared names of a list are those of its elements in order. -/
@[simp] theorem boundNamesAll_eq_flatMap (exprs : List Expr) :
    boundNamesAll exprs = exprs.flatMap boundNames := by
  induction exprs with
  | nil => rfl
  | cons _ _ ih => simp only [boundNamesAll, List.flatMap_cons, ih]

/-- The names declared inside bindings are those of the bound expressions in order. -/
@[simp] theorem boundNamesBound_eq_flatMap (bindings : List (String × Expr)) :
    boundNamesBound bindings = bindings.flatMap fun binding => boundNames binding.2 := by
  induction bindings with
  | nil => rfl
  | cons _ _ ih => simp only [boundNamesBound, List.flatMap_cons, ih]

/-- The names of a list are those of its elements. -/
@[simp] theorem allNamesAll_eq_flatMap (exprs : List Expr) :
    allNamesAll exprs = exprs.flatMap allNames := by
  induction exprs with
  | nil => rfl
  | cons _ _ ih => simp only [allNamesAll, List.flatMap_cons, ih]

/-- The names mentioned inside bindings are those of the bound expressions. -/
@[simp] theorem allNamesBound_eq_flatMap (bindings : List (String × Expr)) :
    allNamesBound bindings = bindings.flatMap fun binding => allNames binding.2 := by
  induction bindings with
  | nil => rfl
  | cons _ _ ih => simp only [allNamesBound, List.flatMap_cons, ih]

end Expr

end MiniScheme
