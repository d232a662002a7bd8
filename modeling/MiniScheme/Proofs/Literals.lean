import MiniScheme.Proofs.NamelessView

/-! # Values inside expressions

Quoted data, and the values that a call carries into a body, stand literally in expressions. Literals show
in the nameless view, and replacing free names adds only those of the replacements. The procedures in a
value are its own and those in pairs, and also those in the literals of their bodies; `Value.freeNames`
gives the names that any of them refers to. -/

namespace MiniScheme

/-! ## Literals -/

namespace Expr

mutual

/-- The data that stand literally in an expression. -/
def literals : Expr → List Value
  | .num _ | .bool _ | .str _ | .var _ | .prim _ => []
  | .lit value => [value]
  | .cond test consequent alternative => literals test ++ literals consequent ++ literals alternative
  | .lambda _ body => literalsAll body
  | .app operator operands => literals operator ++ literalsAll operands
  | .letIn bindings body => literalsBound bindings ++ literalsAll body
  | .define _ value => literals value

/-- The data that stand literally in a list of expressions. -/
def literalsAll : List Expr → List Value
  | [] => []
  | expr :: exprs => literals expr ++ literalsAll exprs

/-- The data that stand literally in the bound expressions of bindings. -/
def literalsBound : List (String × Expr) → List Value
  | [] => []
  | (_, value) :: bindings => literals value ++ literalsBound bindings

end

/-- The literals of a list are those of its elements. -/
@[simp] theorem literalsAll_eq_flatMap (exprs : List Expr) :
    literalsAll exprs = exprs.flatMap literals := by
  induction exprs with
  | nil => rfl
  | cons _ _ ih => simp only [literalsAll, List.flatMap_cons, ih]

/-- The literals of bindings are those of the bound expressions. -/
@[simp] theorem literalsBound_eq_flatMap (bindings : List (String × Expr)) :
    literalsBound bindings = bindings.flatMap fun binding => binding.2.literals := by
  induction bindings with
  | nil => rfl
  | cons _ _ ih => simp only [literalsBound, List.flatMap_cons, ih]

end Expr

/-- The data that stand literally in a program. -/
def Program.literals (program : Program) : List Value :=
  program.forms.flatMap Expr.literals

namespace Nameless

variable {α : Type}

mutual

/-- The literals in a nameless tree. -/
def literals : Nameless α → List α
  | .num _ | .bool _ | .str _ | .ref _ | .prim _ => []
  | .lit value => [value]
  | .cond test consequent alternative => literals test ++ literals consequent ++ literals alternative
  | .lambda _ body => literalsAll body
  | .app operator operands => literals operator ++ literalsAll operands
  | .letIn values body => literalsAll values ++ literalsAll body
  | .define _ value => literals value

/-- The literals in a list of nameless trees. -/
def literalsAll : List (Nameless α) → List α
  | [] => []
  | tree :: trees => literals tree ++ literalsAll trees

end

/-- The literals of a list are those of its trees. -/
@[simp] theorem literalsAll_eq_flatMap (trees : List (Nameless α)) :
    literalsAll trees = trees.flatMap literals := by
  induction trees with
  | nil => rfl
  | cons _ _ ih => simp only [literalsAll, List.flatMap_cons, ih]

/-- After a change of references, the literals are those from before and those that the change brings. -/
theorem forall_literals_mapRefs {p : α → Prop} {change : Nat → Pointer → Nameless α} {tree : Nameless α}
    (own : ∀ value ∈ tree.literals, p value)
    (brought : ∀ depth pointer, ∀ value ∈ (change depth pointer).literals, p value) (depth : Nat) :
    ∀ value ∈ (tree.mapRefs change depth).literals, p value := by
  induction tree generalizing depth with
  | num | bool | str | lit | prim => exact own
  | ref pointer => exact brought depth pointer
  | cond test consequent alternative ihTest ihConsequent ihAlternative =>
      simp only [mapRefs, literals, List.forall_mem_append] at own ⊢
      exact ⟨⟨ihTest own.1.1 depth, ihConsequent own.1.2 depth⟩, ihAlternative own.2 depth⟩
  | lambda arity body ihBody =>
      simp only [mapRefs, mapRefsAll_eq_map, literals, literalsAll_eq_flatMap, List.forall_mem_flatMap,
        List.forall_mem_map] at own ⊢
      exact fun form member => ihBody form member (own form member) (depth + 1)
  | app operator operands ihOperator ihOperands =>
      simp only [mapRefs, mapRefsAll_eq_map, literals, literalsAll_eq_flatMap, List.forall_mem_append,
        List.forall_mem_flatMap, List.forall_mem_map] at own ⊢
      exact ⟨ihOperator own.1 depth, fun operand member =>
        ihOperands operand member (own.2 operand member) depth⟩
  | letIn values body ihValues ihBody =>
      simp only [mapRefs, mapRefsAll_eq_map, literals, literalsAll_eq_flatMap, List.forall_mem_append,
        List.forall_mem_flatMap, List.forall_mem_map] at own ⊢
      exact ⟨fun value member => ihValues value member (own.1 value member) depth,
        fun form member => ihBody form member (own.2 form member) (depth + 1)⟩
  | define name value ihValue => exact ihValue own depth

/-- After a replacement, the literals are those from before and those of the replacements. -/
theorem forall_literals_replaceFree {p : α → Prop} {replacements : List (String × Nameless α)}
    {tree : Nameless α} (own : ∀ value ∈ tree.literals, p value)
    (brought : ∀ entry ∈ replacements, ∀ value ∈ entry.2.literals, p value) :
    ∀ value ∈ (tree.replaceFree replacements).literals, p value := by
  refine forall_literals_mapRefs own (fun _ pointer => ?_) 0
  cases pointer with
  | bound depth position => exact List.forall_mem_nil _
  | free name =>
      rw [Pointer.replace]
      cases found : replacements.lookup name with
      | none => exact List.forall_mem_nil _
      | some replacement => exact brought _ (mem_of_lookup_eq_some found)

end Nameless

/-- The nameless view has the literals of the expression, as the view gives them. -/
theorem Expr.literals_nameless {α : Type} (literal : Value → α) (contours : List (List String))
    (expr : Expr) : (expr.nameless literal contours).literals = expr.literals.map literal := by
  induction expr generalizing contours with
  | num | bool | str | var | lit | prim => rfl
  | cond test consequent alternative ihTest ihConsequent ihAlternative =>
      simp only [nameless, Nameless.literals, literals, List.map_append, ihTest, ihConsequent,
        ihAlternative]
  | lambda params body ihBody =>
      simp only [nameless, namelessAll_eq_map, Nameless.literals, Nameless.literalsAll_eq_flatMap,
        literals, literalsAll_eq_flatMap, List.flatMap_map, List.map_flatMap]
      exact List.flatMap_congr fun form member => ihBody form member (params :: contours)
  | app operator operands ihOperator ihOperands =>
      simp only [nameless, namelessAll_eq_map, Nameless.literals, Nameless.literalsAll_eq_flatMap,
        literals, literalsAll_eq_flatMap, List.flatMap_map, List.map_append, List.map_flatMap,
        ihOperator]
      congr 1
      exact List.flatMap_congr fun operand member => ihOperands operand member contours
  | letIn bindings body ihBindings ihBody =>
      simp only [nameless, namelessAll_eq_map, namelessBound_eq_map, Nameless.literals,
        Nameless.literalsAll_eq_flatMap, literals, literalsAll_eq_flatMap, literalsBound_eq_flatMap,
        List.flatMap_map, List.map_append, List.map_flatMap]
      congr 1
      · exact List.flatMap_congr fun binding member => ihBindings binding member contours
      · exact List.flatMap_congr fun form member =>
          ihBody form member (bindings.map Prod.fst :: contours)
  | define name value ihValue => exact ihValue contours

/-! ## Procedures in values -/

/-- Whether a value holds no procedure. -/
def Value.HoldsNoProcedure : Value → Prop
  | .cons car cdr => car.HoldsNoProcedure ∧ cdr.HoldsNoProcedure
  | .closure _ _ => False
  | _ => True

mutual

/-- The names that the procedures in a value refer to without declaring them. A procedure is found in a
pair, and in a literal in the body of another procedure. -/
def Value.freeNames : Value → List String
  | .cons car cdr => car.freeNames ++ cdr.freeNames
  | .closure params body => (Expr.lambda params body).freeNames ++ Expr.literalNamesAll body
  | _ => []

/-- The names that the procedures in the literals of an expression refer to. -/
def Expr.literalNames : Expr → List String
  | .num _ | .bool _ | .str _ | .var _ | .prim _ => []
  | .lit value => value.freeNames
  | .cond test consequent alternative =>
      test.literalNames ++ consequent.literalNames ++ alternative.literalNames
  | .lambda _ body => Expr.literalNamesAll body
  | .app operator operands => operator.literalNames ++ Expr.literalNamesAll operands
  | .letIn bindings body => Expr.literalNamesBound bindings ++ Expr.literalNamesAll body
  | .define _ value => value.literalNames

/-- The names that the procedures in the literals of a list of expressions refer to. -/
def Expr.literalNamesAll : List Expr → List String
  | [] => []
  | expr :: exprs => expr.literalNames ++ Expr.literalNamesAll exprs

/-- The names that the procedures in the literals of bound expressions refer to. -/
def Expr.literalNamesBound : List (String × Expr) → List String
  | [] => []
  | (_, value) :: bindings => value.literalNames ++ Expr.literalNamesBound bindings

end

/-- The names in literals are those in each literal. -/
theorem Expr.literalNames_eq_flatMap (expr : Expr) :
    expr.literalNames = expr.literals.flatMap Value.freeNames := by
  have all {exprs : List Expr}
      (each : ∀ expr ∈ exprs, expr.literalNames = expr.literals.flatMap Value.freeNames) :
      literalNamesAll exprs = (literalsAll exprs).flatMap Value.freeNames := by
    induction exprs with
    | nil => rfl
    | cons expr exprs ih =>
        rw [List.forall_mem_cons] at each
        rw [literalNamesAll, literalsAll, List.flatMap_append, each.1, ih each.2]
  have bound {bindings : List (String × Expr)}
      (each : ∀ binding ∈ bindings,
        binding.2.literalNames = binding.2.literals.flatMap Value.freeNames) :
      literalNamesBound bindings = (literalsBound bindings).flatMap Value.freeNames := by
    induction bindings with
    | nil => rfl
    | cons binding bindings ih =>
        rw [List.forall_mem_cons] at each
        rw [literalNamesBound, literalsBound, List.flatMap_append, each.1, ih each.2]
  induction expr with
  | num | bool | str | var | prim => rfl
  | lit value => rw [literalNames, literals, List.flatMap_singleton]
  | cond test consequent alternative ihTest ihConsequent ihAlternative =>
      simp only [literalNames, literals, List.flatMap_append, ihTest, ihConsequent, ihAlternative]
  | lambda params body ihBody => exact all ihBody
  | app operator operands ihOperator ihOperands =>
      rw [literalNames, literals, List.flatMap_append, ihOperator, all ihOperands]
  | letIn bindings body ihBindings ihBody =>
      rw [literalNames, literals, List.flatMap_append, bound ihBindings, all ihBody]
  | define name value ihValue => exact ihValue

/-- A procedure refers to its free names and to those of the literals in its body. -/
theorem Value.freeNames_closure (params : List String) (body : List Expr) :
    (Value.closure params body).freeNames = (Expr.lambda params body).freeNames ++
      (Expr.lambda params body).literals.flatMap Value.freeNames := by
  rw [freeNames, ← Expr.literalNames_eq_flatMap, Expr.literalNames]

/-- Nothing is referred to in a value without procedures. -/
theorem Value.HoldsNoProcedure.freeNames_eq_nil {value : Value} (plain : value.HoldsNoProcedure) :
    value.freeNames = [] := by
  induction value with
  | cons car cdr ihCar ihCdr => rw [freeNames, ihCar plain.1, ihCdr plain.2, List.append_nil]
  | closure params body => exact plain.elim
  | number | bool | string | symbol | nil | prim => rw [freeNames]; all_goals nofun

end MiniScheme
