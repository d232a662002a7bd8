import MiniScheme.Proofs.Instantiation
import MiniScheme.Proofs.Legible
import MiniScheme.Proofs.Literals
import MiniScheme.Proofs.ValueOver

/-! # References within a set of names

An expression refers within a set of names if its free references and those of the procedures in its
literals are in the set. Parts of such an expression, the results of operators on such values, and the forms
that remain of such a procedure when it is applied to such values refer within the set too. Nothing else
comes up in an evaluation, so that a name outside the set is never looked up. -/

namespace MiniScheme

variable {allowed : String → Prop}

/-- Whether the procedures in a value refer to allowed names only. -/
def Value.RefersWithin (allowed : String → Prop) (value : Value) : Prop :=
  ∀ name ∈ value.freeNames, allowed name

/-- Whether an expression and the procedures in its literals refer to allowed names only. -/
structure Expr.RefersWithin (allowed : String → Prop) (expr : Expr) : Prop where
  /-- The free references are allowed. -/
  names : ∀ name ∈ expr.freeNames, allowed name
  /-- The procedures in literals refer to allowed names. -/
  literals : ∀ value ∈ expr.literals, value.RefersWithin allowed

namespace Value

/-- A pair refers to what its components refer to. -/
theorem refersWithin_cons_iff {car cdr : Value} :
    (Value.cons car cdr).RefersWithin allowed ↔ car.RefersWithin allowed ∧ cdr.RefersWithin allowed := by
  rw [RefersWithin, freeNames, List.forall_mem_append]
  rfl

/-- A procedure refers to what the expression for it refers to. -/
theorem refersWithin_closure_iff {params : List String} {body : List Expr} :
    (Value.closure params body).RefersWithin allowed ↔
      (Expr.lambda params body).RefersWithin allowed := by
  rw [RefersWithin, freeNames_closure, List.forall_mem_append, List.forall_mem_flatMap]
  exact ⟨fun within => ⟨within.1, within.2⟩, fun within => ⟨within.1, within.2⟩⟩

/-- A value without procedures refers to nothing. -/
theorem HoldsNoProcedure.refersWithin {value : Value} (plain : value.HoldsNoProcedure) :
    value.RefersWithin allowed := by
  rw [RefersWithin, plain.freeNames_eq_nil]
  exact List.forall_mem_nil _

/-- The expression for a value refers to what the value refers to. -/
theorem RefersWithin.toExpr {value : Value} (within : value.RefersWithin allowed) :
    value.toExpr.RefersWithin allowed := by
  cases value with
  | closure params body => exact refersWithin_closure_iff.1 within
  | number | bool | string | prim => exact ⟨List.forall_mem_nil _, List.forall_mem_nil _⟩
  | symbol | nil | cons => exact ⟨List.forall_mem_nil _, List.forall_mem_singleton.2 within⟩

end Value

namespace Expr.RefersWithin

/-- The branches of a conditional refer to what it refers to. -/
theorem cond {test consequent alternative : Expr}
    (within : (Expr.cond test consequent alternative).RefersWithin allowed) :
    test.RefersWithin allowed ∧ consequent.RefersWithin allowed ∧ alternative.RefersWithin allowed := by
  obtain ⟨names, values⟩ := within
  rw [freeNames, List.forall_mem_append, List.forall_mem_append] at names
  rw [Expr.literals, List.forall_mem_append, List.forall_mem_append] at values
  exact ⟨⟨names.1.1, values.1.1⟩, ⟨names.1.2, values.1.2⟩, ⟨names.2, values.2⟩⟩

/-- The parts of an application refer to what it refers to. -/
theorem app {operator : Expr} {operands : List Expr}
    (within : (Expr.app operator operands).RefersWithin allowed) :
    operator.RefersWithin allowed ∧ ∀ operand ∈ operands, operand.RefersWithin allowed := by
  obtain ⟨names, values⟩ := within
  rw [freeNames, freeNamesAll_eq_flatMap, List.forall_mem_append, List.forall_mem_flatMap] at names
  rw [Expr.literals, literalsAll_eq_flatMap, List.forall_mem_append, List.forall_mem_flatMap] at values
  exact ⟨⟨names.1, values.1⟩, fun operand member => ⟨names.2 operand member, values.2 operand member⟩⟩

/-- The value of a definition refers to what the definition refers to. -/
theorem define {name : String} {value : Expr} (within : (Expr.define name value).RefersWithin allowed) :
    value.RefersWithin allowed :=
  ⟨within.names, within.literals⟩

end Expr.RefersWithin

namespace Primitive

variable {op : Primitive} {arguments : List Value}

/-- The result of an operator refers to what the arguments refer to. -/
theorem refersWithin_apply (within : ∀ argument ∈ arguments, argument.RefersWithin allowed)
    {result : Value} (applied : op.apply arguments = .ok result) : result.RefersWithin allowed := by
  have plain {value : Value} (plain : value.HoldsNoProcedure) : value.RefersWithin allowed :=
    plain.refersWithin
  exact holds_of_apply (fun _ => plain trivial) (fun _ => plain trivial) (plain trivial)
    (fun _ _ => Value.refersWithin_cons_iff) within applied

/-- No operator fails because a name is unbound. -/
theorem ne_unboundVariable_of_apply {error : EvalError} (failed : op.apply arguments = .error error)
    (name : String) : error ≠ .unboundVariable name := by
  rcases error_of_apply failed with ⟨expected, found, rfl⟩ | ⟨fault, rfl⟩
  · exact nofun
  · exact nofun

end Primitive

namespace Evaluator

/-- The forms that remain of a procedure refer to what the procedure and the arguments refer to. -/
theorem refersWithin_instantiate {params : List String} {body : List Expr} {arguments : List Value}
    (sameNumber : params.length = arguments.length)
    (procedure : (Value.closure params body).RefersWithin allowed)
    (within : ∀ argument ∈ arguments, argument.RefersWithin allowed) :
    ∀ form ∈ instantiate params body arguments, form.RefersWithin allowed := by
  obtain ⟨names, values⟩ := Value.refersWithin_closure_iff.1 procedure
  rw [Expr.freeNames, Expr.freeNamesAll_eq_flatMap] at names
  rw [Expr.literals, Expr.literalsAll_eq_flatMap, List.forall_mem_flatMap] at values
  intro form member
  -- A form that remains is, in the nameless view, a form of the body with arguments for the parameters.
  obtain ⟨source, inBody, same⟩ : ∃ source ∈ body,
      (source.nameless id []).replaceFree
        (params.zip (arguments.map fun argument => argument.toExpr.nameless id [])) =
          form.nameless id [] := by
    rw [← List.mem_map, ← map_nameless_instantiate id sameNumber]
    exact List.mem_map_of_mem member
  refine ⟨fun name free => ?_, ?_⟩
  · rw [← Expr.freeNames_nameless_nil id form, ← same, Nameless.mem_freeNames_replaceFree,
      Expr.freeNames_nameless_nil] at free
    obtain ⟨old, mentioned, passed⟩ := free
    rw [mem_freeNames_replace_iff id sameNumber, PassesFreeName] at passed
    by_cases declared : old ∈ params
    · rw [if_pos declared] at passed
      obtain ⟨argument, given, free⟩ := passed
      exact (within argument (List.mem_of_getElem? given)).toExpr.names name free
    · rw [if_neg declared] at passed
      subst passed
      have inSource := List.mem_flatMap.2 ⟨source, inBody, mentioned⟩
      exact names name (Expr.mem_filter_undeclared_iff.2 ⟨declared, inSource⟩)
  · rw [← List.map_id form.literals, ← Expr.literals_nameless id [], ← same]
    refine Nameless.forall_literals_replaceFree ?_ ?_
    · rw [Expr.literals_nameless, List.map_id]
      exact values source inBody
    · intro entry zipped
      obtain ⟨argument, given, tree⟩ := List.mem_map.1 (List.of_mem_zip zipped).2
      rw [← tree, Expr.literals_nameless, List.map_id]
      exact (within argument given).toExpr.literals

end Evaluator

end MiniScheme
