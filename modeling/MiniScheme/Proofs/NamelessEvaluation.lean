import MiniScheme.Proofs.Instantiation
import MiniScheme.Proofs.ValueOver

/-! # Evaluation of nameless trees

The nameless view of a value also takes the names out of the procedures in it and of the values that
stand literally in their bodies. `Term.eval` evaluates nameless trees; an application fills the references
to the parameters with the arguments, and nothing has to be renamed. Evaluation of expressions agrees with
it at every depth, so it depends on nothing but the nameless view. -/

namespace MiniScheme

/-- A procedure without names: the number of its parameters and the trees of its body, in which they are
the declarations of the outermost contour. -/
structure Abstraction where
  /-- The number of parameters. -/
  arity : Nat
  /-- The forms of the body. -/
  body : List (Nameless (ValueOver Abstraction))

/-- A nameless tree whose literal values have nameless procedures. -/
abbrev Term : Type := Nameless (ValueOver Abstraction)

mutual

/-- The nameless view of a value. -/
def Value.view : Value → ValueOver Abstraction
  | .number value => .number value
  | .bool value => .bool value
  | .string value => .string value
  | .symbol name => .symbol name
  | .nil => .nil
  | .cons car cdr => .cons car.view cdr.view
  | .prim op => .prim op
  | .closure params body => .procedure { arity := params.length, body := Expr.viewAll [params] body }

/-- The nameless view of an expression inside some contours. -/
def Expr.viewIn (contours : List (List String)) : Expr → Term
  | .num value => .num value
  | .bool value => .bool value
  | .str value => .str value
  | .var name => .ref (.locate name contours)
  | .lit value => .lit value.view
  | .prim op => .prim op
  | .cond test consequent alternative =>
      .cond (test.viewIn contours) (consequent.viewIn contours) (alternative.viewIn contours)
  | .lambda params body => .lambda params.length (Expr.viewAll (params :: contours) body)
  | .app operator operands => .app (operator.viewIn contours) (Expr.viewAll contours operands)
  | .letIn bindings body =>
      .letIn (Expr.viewBound contours bindings)
        (Expr.viewAll (bindings.map Prod.fst :: contours) body)
  | .define name value => .define name (value.viewIn contours)

/-- The nameless views of a list of expressions. -/
def Expr.viewAll (contours : List (List String)) : List Expr → List Term
  | [] => []
  | expr :: exprs => expr.viewIn contours :: Expr.viewAll contours exprs

/-- The nameless views of the bound expressions of bindings. -/
def Expr.viewBound (contours : List (List String)) : List (String × Expr) → List Term
  | [] => []
  | (_, value) :: bindings => value.viewIn contours :: Expr.viewBound contours bindings

end

/-- The nameless view of an expression is the nameless tree whose literals are views. -/
theorem Expr.viewIn_eq (contours : List (List String)) (expr : Expr) :
    expr.viewIn contours = expr.nameless Value.view contours := by
  have all {contours : List (List String)} {exprs : List Expr}
      (each : ∀ expr ∈ exprs, expr.viewIn contours = expr.nameless Value.view contours) :
      Expr.viewAll contours exprs = Expr.namelessAll Value.view contours exprs := by
    induction exprs with
    | nil => rfl
    | cons expr exprs ih =>
        rw [List.forall_mem_cons] at each
        rw [viewAll, namelessAll, each.1, ih each.2]
  have bound {contours : List (List String)} {bindings : List (String × Expr)}
      (each : ∀ binding ∈ bindings,
        binding.2.viewIn contours = binding.2.nameless Value.view contours) :
      Expr.viewBound contours bindings = Expr.namelessBound Value.view contours bindings := by
    induction bindings with
    | nil => rfl
    | cons binding bindings ih =>
        rw [List.forall_mem_cons] at each
        rw [viewBound, namelessBound, each.1, ih each.2]
  induction expr generalizing contours with
  | num | bool | str | var | lit | prim => rfl
  | cond test consequent alternative ihTest ihConsequent ihAlternative =>
      rw [viewIn, nameless, ihTest, ihConsequent, ihAlternative]
  | lambda params body ihBody =>
      rw [viewIn, nameless, all fun form member => ihBody form member (params :: contours)]
  | app operator operands ihOperator ihOperands =>
      rw [viewIn, nameless, ihOperator, all fun operand member => ihOperands operand member contours]
  | letIn bindings body ihBindings ihBody =>
      rw [viewIn, nameless, bound fun binding member => ihBindings binding member contours,
        all fun form member => ihBody form member (bindings.map Prod.fst :: contours)]
  | define name value ihValue => rw [viewIn, nameless, ihValue]

/-- The nameless procedure with the given parameters and body. -/
def Abstraction.ofClosure (params : List String) (body : List Expr) : Abstraction where
  arity := params.length
  body := body.map (Expr.nameless Value.view [params])

/-- The view of a value takes the names out of its procedures. -/
theorem Value.view_eq_withProcedures (value : Value) :
    value.view = value.withProcedures Abstraction.ofClosure := by
  induction value with
  | cons car cdr ihCar ihCdr => rw [view, withProcedures, ihCar, ihCdr]
  | closure params body =>
      have views : Expr.viewAll [params] body = Expr.namelessAll Value.view [params] body := by
        induction body with
        | nil => rfl
        | cons form forms ih => rw [Expr.viewAll, Expr.namelessAll, Expr.viewIn_eq, ih]
      rw [view, withProcedures, Abstraction.ofClosure, views, Expr.namelessAll_eq_map]
  | number | bool | string | symbol | nil | prim => rw [view, withProcedures]

/-- The tree that evaluates to a value. -/
def ValueOver.toTerm : ValueOver Abstraction → Term
  | .number value => .num value
  | .bool value => .bool value
  | .string value => .str value
  | .prim op => .prim op
  | .procedure code => .lambda code.arity code.body
  | value => .lit value

/-- The view of the expression for a value is the tree for its view. -/
theorem Value.nameless_toExpr (value : Value) :
    value.toExpr.nameless Value.view [] = value.view.toTerm := by
  cases value with
  | closure params body =>
      rw [view_eq_withProcedures, withProcedures, toExpr, Expr.nameless, Expr.namelessAll_eq_map]
      rfl
  | number | bool | string | symbol | nil | cons | prim =>
      simp only [toExpr, Expr.nameless, view, ValueOver.toTerm]

namespace Term

/-- The definitions in force, the latest first. -/
abbrev Definitions : Type := List (String × ValueOver Abstraction)

/-- The outcome of evaluating a tree to some result. -/
abbrev Run (α : Type) : Type := RunOver Abstraction α

/-- The value of a name by its latest definition. -/
def lookup (definitions : Definitions) (name : String) : Run (ValueOver Abstraction) :=
  match definitions.lookup name with
  | some value => .ok value
  | none => .error (.unboundVariable name)

/-- Evaluates trees in order with the given evaluation, and yields the value of the last. -/
def sequence (eval : Definitions → Term → Run (ValueOver Abstraction)) :
    Definitions → List Term → Run (ValueOver Abstraction)
  | _, [] => .error .emptySequence
  | definitions, .define name value :: forms => do
      let value ← eval definitions value
      sequence eval ((name, value) :: definitions) forms
  | definitions, [last] => eval definitions last
  | definitions, form :: forms => do
      let _ ← eval definitions form
      sequence eval definitions forms

/-- The forms that remain of a procedure that is applied to arguments. -/
def instantiate (code : Abstraction) (arguments : List (ValueOver Abstraction)) : List Term :=
  code.body.map (Nameless.fill [arguments.map ValueOver.toTerm] 0)

/-- Applies a value to arguments, with the given evaluation of the forms that remain of a procedure. -/
def applyWith (run : List Term → Run (ValueOver Abstraction)) (procedure : ValueOver Abstraction)
    (arguments : List (ValueOver Abstraction)) : Run (ValueOver Abstraction) :=
  match procedure with
  | .prim op => op.applyOver arguments
  | .procedure code =>
      if code.arity = arguments.length then run (instantiate code arguments)
      else .error (.arityMismatch procedure (.exactly code.arity) arguments.length)
  | _ => .error (.notProcedure procedure)

/-- Evaluates a tree, cut off at a depth of nested evaluations. Trees are evaluated when no contour is
around them; a reference into one has no value at any depth. -/
def eval : Nat → Definitions → Term → Run (ValueOver Abstraction)
  | 0, _, _ => .error .cutOff
  | depth + 1, definitions, term =>
      match term with
      | .num value => .ok (.number value)
      | .bool value => .ok (.bool value)
      | .str value => .ok (.string value)
      | .lit value => .ok value
      | .prim op => .ok (.prim op)
      | .ref (.free name) => lookup definitions name
      | .ref (.bound _ _) => .error .cutOff
      | .cond test consequent alternative => do
          let value ← eval depth definitions test
          if value.isTrue then eval depth definitions consequent
          else eval depth definitions alternative
      | .lambda arity body => .ok (.procedure { arity, body })
      | .app operator operands => do
          let procedure ← eval depth definitions operator
          let arguments ← operands.mapM (eval depth definitions)
          applyWith (sequence (eval depth) definitions) procedure arguments
      | .letIn _ _ => .error (.malformed .letForm)
      | .define name _ => .error (.malformed (.define name))

end Term

/-! ## Evaluation depends on nameless views only -/

/-- The nameless view of an environment. -/
def Environment.view (environment : Environment) : Term.Definitions :=
  environment.definitions.map fun definition => (definition.1, definition.2.view)

namespace Outcome

variable {α β : Type}

/-- The outcome with the result converted and the values in an error in their nameless view. -/
def viewWith (convert : α → β) : Outcome α → Term.Run β
  | .result value => .ok (convert value)
  | .failure error => .error (.ofError Value.view error)
  | .cutOff => .error .cutOff

/-- The nameless view of an outcome. -/
abbrev view : Outcome Value → Term.Run (ValueOver Abstraction) :=
  viewWith Value.view

/-- Views go through a sequence of two evaluations. -/
theorem viewWith_bind {α' β' : Type} {convert : α → β} {convert' : α' → β'} {outcome : Outcome α}
    {next : α → Outcome α'} {next' : β → Term.Run β'}
    (later : ∀ value, (next value).viewWith convert' = next' (convert value)) :
    (outcome >>= next).viewWith convert' = outcome.viewWith convert >>= next' := by
  cases outcome with
  | result value => exact later value
  | failure error => rfl
  | cutOff => rfl

/-- Views go through a sequence of two evaluations, of which the first is for nothing. -/
theorem view_then (first : Outcome Value) {second : Outcome Value}
    {second' : Term.Run (ValueOver Abstraction)} (same : second.view = second') :
    (first >>= fun _ => second).view = first.view >>= fun _ => second' :=
  viewWith_bind fun _ => same

/-- Views go through the evaluation of a list. -/
theorem viewWith_mapM {γ δ : Type} {convert : α → β} {item : γ → δ} {evaluate : γ → Outcome α}
    {evaluate' : δ → Term.Run β} {items : List γ}
    (each : ∀ entry ∈ items, (evaluate entry).viewWith convert = evaluate' (item entry)) :
    (items.mapM evaluate).viewWith (List.map convert) = (items.map item).mapM evaluate' := by
  induction items with
  | nil => rfl
  | cons entry entries ih =>
      rw [List.forall_mem_cons] at each
      rw [List.map_cons, List.mapM_cons, List.mapM_cons, ← each.1, ← ih each.2]
      refine viewWith_bind fun value => ?_
      exact viewWith_bind fun values => rfl

/-- The view of a computation that always ends. -/
theorem view_ofExcept (result : Except EvalError Value) :
    (ofExcept result).view = RunOver.ofExcept Value.view result := by
  cases result <;> rfl

end Outcome

namespace Evaluator

/-- A name has the same value, or none, in the nameless view. -/
theorem view_lookup (environment : Environment) (name : String) :
    (Outcome.ofExcept (environment.lookup name)).view = Term.lookup environment.view name := by
  have found : environment.view.lookup name =
      (environment.definitions.lookup name).map Value.view :=
    lookup_map Value.view environment.definitions name
  rw [Environment.lookup, Term.lookup, found]
  cases environment.definitions.lookup name <;> rfl

variable {evaluate : Environment → Expr → Outcome Value}
  {evaluate' : Term.Definitions → Term → Term.Run (ValueOver Abstraction)}

/-- If evaluation of expressions depends on views only, so does evaluation of sequences. -/
theorem view_sequence
    (agree : ∀ environment expr,
      (evaluate environment expr).view =
        evaluate' environment.view (expr.nameless Value.view []))
    (environment : Environment) (forms : List Expr) :
    (sequence evaluate environment forms).view =
      Term.sequence evaluate' environment.view (forms.map (Expr.nameless Value.view [])) := by
  induction forms generalizing environment with
  | nil => rfl
  | cons form forms ih =>
      cases form with
      | define name value =>
          rw [List.map_cons, Expr.nameless, Term.sequence, ← agree]
          exact Outcome.viewWith_bind fun result => ih (environment.extend name result)
      -- No other form extends the environment.
      | _ =>
          cases forms with
          | nil => exact agree environment _
          | cons next rest =>
              refine (Outcome.view_then _ (ih environment)).trans ?_
              rw [agree]
              rfl

/-- Filling the references to the parameters is replacing the parameters in the body. -/
theorem instantiate_ofClosure {params : List String} {body : List Expr} {arguments : List Value}
    (sameNumber : params.length = arguments.length) :
    Term.instantiate (.ofClosure params body) (arguments.map Value.view) =
      body.map fun form => (form.nameless Value.view []).replaceFree (params.zip
        (arguments.map fun argument => argument.toExpr.nameless Value.view [])) := by
  have trees : (arguments.map Value.view).map ValueOver.toTerm =
      arguments.map fun argument => argument.toExpr.nameless Value.view [] := by
    rw [List.map_map]
    exact List.map_congr_left fun argument _ => argument.nameless_toExpr.symm
  rw [Term.instantiate, Abstraction.ofClosure, trees, List.map_map]
  refine List.map_congr_left fun form _ => ?_
  rw [Function.comp_apply, ← Nameless.fill_close (Expr.scoped_nameless Value.view [] form)
    (by rw [List.length_map, sameNumber])]
  congr 1
  exact Expr.nameless_append Value.view [] [params] form

/-- If the forms that remain of a procedure are evaluated by their views, so is an application. -/
theorem view_applyWith {run : List Expr → Outcome Value}
    {run' : List Term → Term.Run (ValueOver Abstraction)}
    (agree : ∀ forms, (run forms).view = run' (forms.map (Expr.nameless Value.view [])))
    (procedure : Value) (arguments : List Value) :
    (applyWith run procedure arguments).view =
      Term.applyWith run' procedure.view (arguments.map Value.view) := by
  cases procedure with
  | prim op =>
      have views : Value.view = Value.withProcedures Abstraction.ofClosure :=
        funext Value.view_eq_withProcedures
      rw [applyWith, Outcome.view_ofExcept, views, Value.withProcedures, Term.applyWith,
        Primitive.applyOver_withProcedures]
  | closure params body =>
      have callee : (Value.closure params body).view =
          .procedure (Abstraction.ofClosure params body) := Value.view_eq_withProcedures _
      rw [applyWith, callee, Term.applyWith, List.length_map]
      -- Both evaluations compare the same two numbers.
      by_cases sameNumber : params.length = arguments.length
      · rw [if_pos sameNumber, agree, map_nameless_instantiate Value.view sameNumber,
          if_pos (show (Abstraction.ofClosure params body).arity = _ from sameNumber)]
        exact congrArg run' (instantiate_ofClosure sameNumber).symm
      · rw [if_neg sameNumber, if_neg (show (Abstraction.ofClosure params body).arity ≠ _ from
          sameNumber), ← callee]
        rfl
  | _ => rfl

/-- Evaluation agrees with the evaluation of nameless views at every depth. -/
theorem view_eval (depth : Nat) (environment : Environment) (expr : Expr) :
    (eval depth environment expr).view =
      Term.eval depth environment.view (expr.nameless Value.view []) := by
  -- By induction on the depth: every evaluation inside goes one level deeper.
  induction depth generalizing environment expr with
  | zero => rfl
  | succ depth ih =>
      cases expr with
      | num | bool | str | prim | lit | letIn | define => rfl
      | var name => exact view_lookup environment name
      | lambda params body =>
          rw [Expr.nameless, Expr.namelessAll_eq_map, eval, Term.eval]
          exact congrArg Except.ok (Value.view_eq_withProcedures _)
      | cond test consequent alternative =>
          rw [Expr.nameless, eval, Term.eval, ← ih]
          refine Outcome.viewWith_bind fun value => ?_
          have same : value.view.isTrue = value.isTrue := by
            cases value <;> simp only [Value.view, ValueOver.isTrue, Value.isTrue]
          rw [same]
          cases value.isTrue with
          | true => exact ih environment consequent
          | false => exact ih environment alternative
      | app operator operands =>
          rw [Expr.nameless, Expr.namelessAll_eq_map, eval, Term.eval, ← ih]
          refine Outcome.viewWith_bind fun procedure => ?_
          rw [← Outcome.viewWith_mapM fun operand _ => ih environment operand]
          refine Outcome.viewWith_bind fun arguments => ?_
          exact view_applyWith (view_sequence ih environment) procedure arguments

end Evaluator

end MiniScheme
