import MiniScheme.Proofs.Instantiation
import MiniScheme.Proofs.Legible
import MiniScheme.Proofs.ValueOver

/-! # Evaluable expressions

What the evaluator cannot cope with are local bindings, definitions inside an expression, and procedures
without a form to evaluate. An expression is evaluable if there are none of these in it, also in the
procedures that its literals hold. Legible expressions are evaluable once their local bindings are replaced.
It shows in the nameless view whether an expression is evaluable, so the forms that remain of an evaluable
procedure are evaluable too, whatever names they are given; and so is what operators make of evaluable
values. -/

namespace MiniScheme

mutual

/-- Whether an expression has neither local bindings nor definitions, and its procedures, in literals too,
have at least one form each. -/
def Expr.Evaluable : Expr → Prop
  | .num _ | .bool _ | .str _ | .var _ | .prim _ => True
  | .lit value => value.Evaluable
  | .cond test consequent alternative =>
      test.Evaluable ∧ consequent.Evaluable ∧ alternative.Evaluable
  | .lambda _ body => body ≠ [] ∧ Expr.EvaluableAll body
  | .app operator operands => operator.Evaluable ∧ Expr.EvaluableAll operands
  | .letIn _ _ | .define _ _ => False

/-- Whether all expressions of a list are evaluable. -/
def Expr.EvaluableAll : List Expr → Prop
  | [] => True
  | expr :: exprs => expr.Evaluable ∧ Expr.EvaluableAll exprs

/-- Whether the procedures in a value have at least one form each, all of them evaluable. -/
def Value.Evaluable : Value → Prop
  | .cons car cdr => car.Evaluable ∧ cdr.Evaluable
  | .closure _ body => body ≠ [] ∧ Expr.EvaluableAll body
  | _ => True

end

/-- A list is evaluable if each of its expressions is. -/
@[simp] theorem Expr.evaluableAll_iff (exprs : List Expr) :
    EvaluableAll exprs ↔ ∀ expr ∈ exprs, expr.Evaluable := by
  induction exprs with
  | nil => simp [EvaluableAll]
  | cons _ _ ih => simp [EvaluableAll, ih]

/-- A pair is evaluable if its components are. -/
theorem Value.evaluable_cons_iff (car cdr : Value) :
    (Value.cons car cdr).Evaluable ↔ car.Evaluable ∧ cdr.Evaluable := by
  rw [Evaluable]

/-- A procedure is evaluable if it has forms and these are evaluable. -/
theorem Value.evaluable_closure_iff {params : List String} {body : List Expr} :
    (Value.closure params body).Evaluable ↔ body ≠ [] ∧ ∀ form ∈ body, form.Evaluable := by
  rw [Evaluable, Expr.evaluableAll_iff]

/-- The expression for an evaluable value is evaluable. -/
theorem Value.Evaluable.toExpr {value : Value} (evaluable : value.Evaluable) :
    value.toExpr.Evaluable := by
  cases value with
  | number | bool | string | prim => trivial
  | symbol | nil | cons => exact evaluable
  | closure params body =>
      rw [evaluable_closure_iff] at evaluable
      rw [Value.toExpr, Expr.Evaluable, Expr.evaluableAll_iff]
      exact evaluable

/-- Operators make evaluable values of evaluable values. -/
theorem Primitive.evaluable_apply {op : Primitive} {arguments : List Value} {result : Value}
    (evaluable : ∀ argument ∈ arguments, argument.Evaluable) (applied : op.apply arguments = .ok result) :
    result.Evaluable :=
  holds_of_apply (fun _ => trivial) (fun _ => trivial) trivial Value.evaluable_cons_iff evaluable applied

/-! ## Legible expressions -/

/-- Legible data are evaluable: they hold no procedures. -/
theorem Value.Legible.evaluable {value : Value} (legible : value.Legible) : value.Evaluable := by
  induction legible with
  | number | bool | string | symbol | nil => trivial
  | cons _ _ _ ihCar ihCdr =>
      rw [evaluable_cons_iff]
      exact ⟨ihCar, ihCdr⟩

namespace Expr

/-- A legible expression is evaluable once its local bindings are replaced. -/
theorem Legible.evaluable_eliminateLets {expr : Expr} (legible : expr.Legible) :
    expr.eliminateLets.Evaluable := by
  induction legible with
  | num | bool | str | var | prim => trivial
  | lit data => exact data.evaluable
  | cond _ _ _ ihTest ihConsequent ihAlternative => exact ⟨ihTest, ihConsequent, ihAlternative⟩
  | lambda _ _ nonempty _ ihBody =>
      simp only [eliminateLets, eliminateLetsAll_eq_map, Evaluable, evaluableAll_iff, List.forall_mem_map]
      exact ⟨by simpa using nonempty, ihBody⟩
  | app _ _ _ ihOperator ihOperands =>
      simp only [eliminateLets, eliminateLetsAll_eq_map, Evaluable, evaluableAll_iff, List.forall_mem_map]
      exact ⟨ihOperator, ihOperands⟩
  | letIn _ _ _ nonempty _ ihBindings ihBody =>
      -- Local bindings have become the application of a procedure, which has the forms of the body.
      simp only [eliminateLets, eliminateLetsAll_eq_map, eliminateLetsBound_eq_map, Evaluable,
        evaluableAll_iff, List.forall_mem_map]
      exact ⟨⟨by simpa using nonempty, ihBody⟩, ihBindings⟩

end Expr

/-! ## The nameless view -/

namespace Nameless

mutual

/-- Whether a nameless tree has neither local bindings nor definitions, and its procedures, in literals too,
have at least one form each. -/
def Evaluable : Nameless Value → Prop
  | .num _ | .bool _ | .str _ | .ref _ | .prim _ => True
  | .lit value => value.Evaluable
  | .cond test consequent alternative =>
      test.Evaluable ∧ consequent.Evaluable ∧ alternative.Evaluable
  | .lambda _ body => body ≠ [] ∧ EvaluableAll body
  | .app operator operands => operator.Evaluable ∧ EvaluableAll operands
  | .letIn _ _ | .define _ _ => False

/-- Whether all nameless trees of a list are evaluable. -/
def EvaluableAll : List (Nameless Value) → Prop
  | [] => True
  | tree :: trees => tree.Evaluable ∧ EvaluableAll trees

end

/-- A list is evaluable if each of its trees is. -/
@[simp] theorem evaluableAll_iff (trees : List (Nameless Value)) :
    EvaluableAll trees ↔ ∀ tree ∈ trees, tree.Evaluable := by
  induction trees with
  | nil => simp [EvaluableAll]
  | cons _ _ ih => simp [EvaluableAll, ih]

/-- A change of references into evaluable trees keeps a tree evaluable. -/
theorem Evaluable.mapRefs {change : Nat → Pointer → Nameless Value} {tree : Nameless Value}
    (evaluable : tree.Evaluable) (brought : ∀ depth pointer, (change depth pointer).Evaluable)
    (depth : Nat) : (tree.mapRefs change depth).Evaluable := by
  induction tree generalizing depth with
  | num | bool | str | lit | prim => exact evaluable
  | ref pointer => exact brought depth pointer
  | cond test consequent alternative ihTest ihConsequent ihAlternative =>
      obtain ⟨inTest, inConsequent, inAlternative⟩ := evaluable
      exact ⟨ihTest inTest depth, ihConsequent inConsequent depth, ihAlternative inAlternative depth⟩
  | lambda arity body ihBody =>
      simp only [Nameless.mapRefs, mapRefsAll_eq_map, Evaluable, evaluableAll_iff,
        List.forall_mem_map] at evaluable ⊢
      obtain ⟨nonempty, inBody⟩ := evaluable
      exact ⟨by simpa using nonempty, fun form member => ihBody form member (inBody form member) _⟩
  | app operator operands ihOperator ihOperands =>
      simp only [Nameless.mapRefs, mapRefsAll_eq_map, Evaluable, evaluableAll_iff,
        List.forall_mem_map] at evaluable ⊢
      obtain ⟨inOperator, inOperands⟩ := evaluable
      exact ⟨ihOperator inOperator depth, fun operand member =>
        ihOperands operand member (inOperands operand member) depth⟩
  | letIn | define => exact evaluable.elim

/-- Evaluable trees in place of free names keep a tree evaluable. -/
theorem Evaluable.replaceFree {tree : Nameless Value} (evaluable : tree.Evaluable)
    {replacements : List (String × Nameless Value)}
    (brought : ∀ entry ∈ replacements, entry.2.Evaluable) :
    (tree.replaceFree replacements).Evaluable := by
  refine evaluable.mapRefs (fun _ pointer => ?_) 0
  cases pointer with
  | bound depth position => trivial
  | free name =>
      rw [Pointer.replace]
      cases found : replacements.lookup name with
      | none => trivial
      | some replacement => exact brought _ (mem_of_lookup_eq_some found)

end Nameless

/-- It shows in the nameless view whether an expression is evaluable. -/
theorem Expr.evaluable_nameless_iff {contours : List (List String)} {expr : Expr} :
    (expr.nameless id contours).Evaluable ↔ expr.Evaluable := by
  induction expr generalizing contours with
  | num | bool | str | var | lit | prim => rfl
  | cond test consequent alternative ihTest ihConsequent ihAlternative =>
      rw [nameless, Nameless.Evaluable, Evaluable, ihTest, ihConsequent, ihAlternative]
  | lambda params body ihBody =>
      simp only [nameless, namelessAll_eq_map, Nameless.Evaluable, Nameless.evaluableAll_iff, Evaluable,
        evaluableAll_iff, List.forall_mem_map, ne_eq, List.map_eq_nil_iff]
      exact and_congr_right fun _ => forall₂_congr fun form member => ihBody form member
  | app operator operands ihOperator ihOperands =>
      simp only [nameless, namelessAll_eq_map, Nameless.Evaluable, Nameless.evaluableAll_iff, Evaluable,
        evaluableAll_iff, List.forall_mem_map, ihOperator]
      exact and_congr_right fun _ => forall₂_congr fun operand member => ihOperands operand member
  | letIn | define => rfl

/-- The forms that remain of an evaluable procedure with evaluable arguments are evaluable, and there is at
least one. -/
theorem Evaluator.evaluable_instantiate {params : List String} {body : List Expr}
    {arguments : List Value} (sameNumber : params.length = arguments.length)
    (procedure : (Value.closure params body).Evaluable)
    (evaluable : ∀ argument ∈ arguments, argument.Evaluable) :
    instantiate params body arguments ≠ [] ∧
      ∀ form ∈ instantiate params body arguments, form.Evaluable := by
  obtain ⟨nonempty, inBody⟩ := Value.evaluable_closure_iff.1 procedure
  -- The forms are those of the body, in the nameless view, with the arguments for the parameters.
  have views := @map_nameless_instantiate _ id params body arguments sameNumber
  constructor
  · intro empty
    rw [empty, List.map_nil, eq_comm, List.map_eq_nil_iff] at views
    exact nonempty views
  · intro form member
    obtain ⟨source, known, same⟩ := List.mem_map.1 (views ▸ List.mem_map_of_mem member)
    rw [← Expr.evaluable_nameless_iff, ← same]
    refine (Expr.evaluable_nameless_iff.2 (inBody source known)).replaceFree ?_
    intro entry zipped
    obtain ⟨argument, given, tree⟩ := List.mem_map.1 (List.of_mem_zip zipped).2
    rw [← tree, Expr.evaluable_nameless_iff]
    exact (evaluable argument given).toExpr

end MiniScheme
