import MiniScheme.Proofs.ReferencesWithin

/-! # Evaluation depends on free names only

A procedure holds no environment: its body is evaluated among the definitions in force where it is called,
and the names that it declares are renamed and then replaced by arguments. None of these names, old or
fresh, is ever looked up. So evaluation is the same in two environments that agree on the names that the
expression, and the procedures that it can come upon, refer to. -/

namespace MiniScheme

variable {allowed missing : String → Prop}

/-! ## Coinciding outcomes -/

namespace Outcome

variable {α β : Type} {kind : α → Prop} {first second : Outcome α}

/-- Two evaluations that have one outcome: a result of some kind, or an error that says of no name but
those that may be missing that it is unbound. -/
structure Coincides (kind : α → Prop) (missing : String → Prop) (first second : Outcome α) : Prop where
  /-- The outcomes are the same. -/
  same : first = second
  /-- A result is of the kind. -/
  sound : ∀ value, first = .result value → kind value
  /-- A name that is unbound may be missing. -/
  absent : ∀ name, first = .failure (.unboundVariable name) → missing name

/-- A result of the kind coincides with itself. -/
theorem coincides_result {value : α} (sound : kind value) :
    Coincides kind missing (.result value) (.result value) := by
  refine ⟨rfl, fun other same => ?_, nofun⟩
  obtain rfl := Outcome.result.inj same
  exact sound

/-- An error that is not about an unbound name coincides with itself. -/
theorem coincides_failure {error : EvalError} (other : ∀ name, error ≠ .unboundVariable name) :
    Coincides kind missing (.failure error) (.failure error) :=
  ⟨rfl, nofun, fun name same => absurd (Outcome.failure.inj same) (other name)⟩

/-- An evaluation that is cut off coincides with itself. -/
theorem coincides_cutOff : Coincides kind missing .cutOff .cutOff :=
  ⟨rfl, nofun, nofun⟩

/-- Evaluations that coincide and go on with results in coinciding ways. -/
theorem Coincides.bind {kind' : β → Prop} {next next' : α → Outcome β}
    (now : Coincides kind missing first second)
    (later : ∀ value, kind value → Coincides kind' missing (next value) (next' value)) :
    Coincides kind' missing (first >>= next) (second >>= next') := by
  obtain ⟨rfl, sound, absent⟩ := now
  cases first with
  | result value => exact later value (sound value rfl)
  | failure error =>
      refine ⟨rfl, nofun, fun name same => absent name ?_⟩
      exact congrArg Outcome.failure (Outcome.failure.inj same)
  | cutOff => exact coincides_cutOff

/-- The evaluation of a list. -/
theorem coincides_mapM {γ : Type} {evaluate evaluate' : γ → Outcome α} {items : List γ}
    (each : ∀ item ∈ items, Coincides kind missing (evaluate item) (evaluate' item)) :
    Coincides (fun values => ∀ value ∈ values, kind value) missing (items.mapM evaluate)
      (items.mapM evaluate') := by
  induction items with
  | nil => exact coincides_result (List.forall_mem_nil _)
  | cons item items ih =>
      rw [List.forall_mem_cons] at each
      rw [List.mapM_cons, List.mapM_cons]
      refine each.1.bind fun value sound => (ih each.2).bind fun values others => ?_
      exact coincides_result (List.forall_mem_cons.2 ⟨sound, others⟩)

end Outcome

open Outcome

/-! ## Environments alike -/

namespace Environment

variable {first second : Environment}

/-- Looking up a name fails only because the name is unbound. -/
theorem eq_unboundVariable_of_lookup {environment : Environment} {name : String} {error : EvalError}
    (failed : environment.lookup name = .error error) : error = .unboundVariable name := by
  rw [lookup] at failed
  cases found : environment.definitions.lookup name with
  | some value => simp [found] at failed
  | none => simpa [found, eq_comm] using failed

/-- Whether each allowed name is looked up alike in two environments: its value refers to allowed names
only, or it may be missing. -/
def Alike (allowed missing : String → Prop) (first second : Environment) : Prop :=
  ∀ name, allowed name → Coincides (Value.RefersWithin allowed) missing
    (.ofExcept (first.lookup name)) (.ofExcept (second.lookup name))

/-- Environments that agree on allowed names, with values that refer to allowed names only, are alike.
Missing are the allowed names that are unbound. -/
theorem alike_of_agree (agree : ∀ name, allowed name → first.lookup name = second.lookup name)
    (within : ∀ name, allowed name → ∀ value, first.lookup name = .ok value →
      value.RefersWithin allowed) :
    Alike allowed (fun name => allowed name ∧ ∀ value, first.lookup name ≠ .ok value) first second := by
  intro name known
  rw [← agree name known]
  cases found : first.lookup name with
  | ok value => exact coincides_result (within name known value found)
  | error error =>
      obtain rfl := eq_unboundVariable_of_lookup found
      refine ⟨rfl, nofun, fun other same => ?_⟩
      obtain rfl := EvalError.unboundVariable.inj (Outcome.failure.inj same)
      refine ⟨known, fun value bound => ?_⟩
      rw [found] at bound
      cases bound

/-- In environments alike, the values of allowed names refer to allowed names only. -/
theorem Alike.refersWithin (alike : Alike allowed missing first second) {name : String}
    (known : allowed name) {value : Value} (bound : first.lookup name = .ok value) :
    value.RefersWithin allowed :=
  (alike name known).sound value (congrArg Outcome.ofExcept bound)

/-- A definition whose value refers to allowed names only leaves environments alike. -/
theorem Alike.extend (alike : Alike allowed missing first second) (name : String) {value : Value}
    (within : value.RefersWithin allowed) :
    Alike allowed missing (first.extend name value) (second.extend name value) := by
  intro other known
  by_cases same : other = name
  · rw [same, lookup_extend_self, lookup_extend_self]
    exact coincides_result within
  · rw [lookup_extend_of_ne _ _ same, lookup_extend_of_ne _ _ same]
    exact alike other known

end Environment

open Environment (Alike)

/-! ## Evaluation in environments alike -/

namespace Evaluator

variable {first second : Environment}

/-- The evaluation of a sequence. -/
theorem coincides_sequence {evaluate : Environment → Expr → Outcome Value}
    (each : ∀ first second, Alike allowed missing first second → ∀ expr : Expr,
      expr.RefersWithin allowed →
        Coincides (Value.RefersWithin allowed) missing (evaluate first expr) (evaluate second expr))
    (alike : Alike allowed missing first second) {forms : List Expr}
    (within : ∀ form ∈ forms, form.RefersWithin allowed) :
    Coincides (Value.RefersWithin allowed) missing (sequence evaluate first forms)
      (sequence evaluate second forms) := by
  induction forms generalizing first second with
  | nil => exact coincides_failure (by simp)
  | cons form forms ih =>
      rw [List.forall_mem_cons] at within
      obtain ⟨here, rest⟩ := within
      cases form with
      | define name value =>
          refine (each first second alike value here.define).bind fun result sound => ?_
          exact ih (alike.extend name sound) rest
      -- No other form extends the environments.
      | _ =>
          cases forms with
          | nil => exact each first second alike _ here
          | cons next rest' => exact (each first second alike _ here).bind fun _ _ => ih alike rest

/-- An application. -/
theorem coincides_applyWith {run run' : List Expr → Outcome Value}
    (each : ∀ forms : List Expr, (∀ form ∈ forms, form.RefersWithin allowed) →
      Coincides (Value.RefersWithin allowed) missing (run forms) (run' forms))
    {procedure : Value} (callee : procedure.RefersWithin allowed) {arguments : List Value}
    (within : ∀ argument ∈ arguments, argument.RefersWithin allowed) :
    Coincides (Value.RefersWithin allowed) missing (applyWith run procedure arguments)
      (applyWith run' procedure arguments) := by
  cases procedure with
  | prim op =>
      rw [applyWith, applyWith]
      cases applied : op.apply arguments with
      | ok result => exact coincides_result (Primitive.refersWithin_apply within applied)
      | error error => exact coincides_failure (Primitive.ne_unboundVariable_of_apply applied)
  | closure params body =>
      rw [applyWith, applyWith]
      by_cases sameNumber : params.length = arguments.length
      · rw [if_pos sameNumber, if_pos sameNumber]
        exact each _ (refersWithin_instantiate sameNumber callee within)
      · rw [if_neg sameNumber, if_neg sameNumber]
        exact coincides_failure (by simp)
  | _ => exact coincides_failure (by simp)

/-- Evaluation in two environments alike coincides at every depth. -/
theorem coincides_eval (depth : Nat) (first second : Environment)
    (alike : Alike allowed missing first second) (expr : Expr) (within : expr.RefersWithin allowed) :
    Coincides (Value.RefersWithin allowed) missing (eval depth first expr) (eval depth second expr) := by
  -- By induction on the depth; definitions in a body go on with environments that are alike again.
  induction depth generalizing first second expr with
  | zero => exact coincides_cutOff
  | succ depth ih =>
      have here := ih first second alike
      cases expr with
      | num | bool | str | prim => exact coincides_result (Value.HoldsNoProcedure.refersWithin trivial)
      | lit value => exact coincides_result (within.literals value (List.mem_singleton_self value))
      | var name => exact alike name (within.names name (List.mem_singleton_self name))
      | lambda params body => exact coincides_result (Value.refersWithin_closure_iff.2 within)
      | letIn | define => exact coincides_failure (by simp)
      | cond test consequent alternative =>
          obtain ⟨inTest, inConsequent, inAlternative⟩ := within.cond
          refine (here test inTest).bind fun value _ => ?_
          cases value.isTrue with
          | true => exact here consequent inConsequent
          | false => exact here alternative inAlternative
      | app operator operands =>
          obtain ⟨inOperator, inOperands⟩ := within.app
          refine (here operator inOperator).bind fun procedure callee => ?_
          refine (coincides_mapM fun operand member =>
            here operand (inOperands operand member)).bind fun arguments sound => ?_
          exact coincides_applyWith (fun forms => coincides_sequence ih alike) callee sound

/-! ## Definitions that nothing refers to -/

/-- A definition that nothing refers to has no influence. If two environments agree on all names but one,
and neither the expression, nor a procedure in its literals, nor one in the value of another name refers to
this name, then evaluation in both has the same outcome at every depth. The name may be one that an
application generates. -/
theorem eval_eq_of_unreferenced {name : String} {expr : Expr}
    (agree : ∀ other, other ≠ name → first.lookup other = second.lookup other)
    (inExpr : name ∉ expr.freeNames) (inLiterals : ∀ value ∈ expr.literals, name ∉ value.freeNames)
    (inValues : ∀ other, other ≠ name → ∀ value, first.lookup other = .ok value →
      name ∉ value.freeNames)
    (depth : Nat) : eval depth first expr = eval depth second expr := by
  have unreferenced {names : List String} (absent : name ∉ names) : ∀ other ∈ names, other ≠ name :=
    fun other member same => absent (same ▸ member)
  have alike := Environment.alike_of_agree agree fun other different value bound =>
    unreferenced (inValues other different value bound)
  have within : expr.RefersWithin (· ≠ name) :=
    ⟨unreferenced inExpr, fun value member => unreferenced (inLiterals value member)⟩
  exact (coincides_eval depth first second alike expr within).same

/-- The call renames the parameter of `f` to `x__2`, and a global of that name has no influence. -/
theorem eval_eq_of_unreferenced_generated :
    instantiate ["x"] [.lambda ["y"] [.app (.var "x") [.var "y"]]] [.prim .not] =
        [.lambda ["y__1"] [.app (.prim .not) [.var "y__1"]]] ∧
      ∀ depth, eval depth ((Environment.empty.extend "f"
          (.closure ["x"] [.lambda ["y"] [.app (.var "x") [.var "y"]]])).extend "x__2" (.bool false))
          (.app (.var "f") [.prim .not]) =
        eval depth (Environment.empty.extend "f"
          (.closure ["x"] [.lambda ["y"] [.app (.var "x") [.var "y"]]])) (.app (.var "f") [.prim .not]) := by
  refine ⟨rfl, @eval_eq_of_unreferenced _ _ "x__2" _ (fun other different => ?_) (by decide) (by decide)
    fun other different value bound => ?_⟩
  · exact Environment.lookup_extend_of_ne _ _ different
  · rw [Environment.lookup_extend_of_ne _ _ different] at bound
    by_cases same : other = "f"
    · rw [same, Environment.lookup_extend_self] at bound
      obtain rfl := Except.ok.inj bound
      decide
    · rw [Environment.lookup_extend_of_ne _ _ same, Environment.lookup_empty] at bound
      cases bound

end Evaluator

end MiniScheme
