import MiniScheme.Proofs.CounterRoom
import MiniScheme.Proofs.EvaluationDepth
import MiniScheme.Proofs.NamelessEvaluation

/-! # Evaluation does not depend on declared names

A program and the same program with its declared names replaced by fresh ones have the same nameless view.
So they both diverge, or both yield values with the same view, or both fail with errors whose values have
the same views and whose messages differ in the names of parameters at most. -/

namespace MiniScheme

/-! ## Agreement up to declared names -/

/-- Agreement of errors: the same kind of error with the same data, and values with the same view. -/
inductive EvalError.Agrees : EvalError → EvalError → Prop
  /-- No definition for the same name. -/
  | unboundVariable (name : String) : Agrees (.unboundVariable name) (.unboundVariable name)
  /-- Applications of values with the same view. -/
  | notProcedure {value value' : Value} (same : value.view = value'.view) :
      Agrees (.notProcedure value) (.notProcedure value')
  /-- Applications of values with the same view to as many arguments, where as many are expected. -/
  | arityMismatch {callee callee' : Value} (same : callee.view = callee'.view) (expected : Arity)
      (found : Nat) :
      Agrees (.arityMismatch callee expected found) (.arityMismatch callee' expected found)
  /-- The same refusal by the same operator. -/
  | operand (op : Primitive) (fault : OperandFault) : Agrees (.operand op fault) (.operand op fault)
  /-- The same reason why an expression cannot be evaluated. -/
  | malformed (fault : EvalFault) : Agrees (.malformed fault) (.malformed fault)
  /-- Nothing left to evaluate. -/
  | emptySequence : Agrees .emptySequence .emptySequence

/-- The value with a blank name in place of each parameter that its text shows. -/
def Value.blankParams : Value → Value
  | .cons car cdr => .cons car.blankParams cdr.blankParams
  | .closure params body => .closure (params.map fun _ => "_") body
  | value => value

/-- The error with a blank name in place of each parameter that its message shows. -/
def EvalError.blankParams : EvalError → EvalError
  | .notProcedure value => .notProcedure value.blankParams
  | .arityMismatch callee expected found => .arityMismatch callee.blankParams expected found
  | error => error

/-- A value with the view, whose procedures have blank parameters and no body. -/
def ValueOver.blank : ValueOver Abstraction → Value
  | .number value => .number value
  | .bool value => .bool value
  | .string value => .string value
  | .symbol name => .symbol name
  | .nil => .nil
  | .cons car cdr => .cons car.blank cdr.blank
  | .prim op => .prim op
  | .procedure code => .closure (List.replicate code.arity "_") []

/-- With blank parameters, the text of a value shows no more than its view. -/
theorem Value.text_blankParams (value : Value) :
    value.blankParams.text = value.view.blank.text ∧
      value.blankParams.tailTexts = value.view.blank.tailTexts := by
  induction value with
  | cons car cdr ihCar ihCdr =>
      have tail : (Value.cons car cdr).blankParams.tailTexts =
          (Value.cons car cdr).view.blank.tailTexts := by
        rw [blankParams, view, ValueOver.blank, tailTexts, tailTexts, ihCar.1, ihCdr.2]
      refine ⟨?_, tail⟩
      rw [blankParams, view, ValueOver.blank, text, text, ihCar.1, ihCdr.2]
  | closure params body =>
      rw [view, ValueOver.blank, blankParams, List.map_const']
      exact ⟨rfl, rfl⟩
  | number | bool | string | symbol | nil | prim =>
      simp only [blankParams, view, ValueOver.blank, and_self]

/-- With blank parameters, values with the same view have the same text. -/
theorem Value.text_blankParams_congr {value value' : Value} (same : value.view = value'.view) :
    value.blankParams.text = value'.blankParams.text := by
  rw [value.text_blankParams.1, same, ← value'.text_blankParams.1]

/-- Messages of errors that agree differ in the names of parameters at most. -/
theorem EvalError.Agrees.message_eq {error error' : EvalError} (agrees : error.Agrees error') :
    error.blankParams.message = error'.blankParams.message := by
  cases agrees with
  | notProcedure same =>
      exact congrArg (fun text => "cannot apply " ++ text ++ ": not a procedure")
        (Value.text_blankParams_congr same)
  | arityMismatch same expected found =>
      exact congrArg (fun text => "arity mismatch in " ++ text ++ ": expected " ++ expected.text ++
        " arguments, found " ++ toString found) (Value.text_blankParams_congr same)
  | unboundVariable | operand | malformed | emptySequence => rfl

/-- Errors with the same view agree. -/
theorem EvalError.agrees_of_view_eq {error error' : EvalError}
    (same : Halt.ofError Value.view error = Halt.ofError Value.view error') :
    error.Agrees error' := by
  cases error with
  | notProcedure value =>
      cases error' with
      | notProcedure value' => exact .notProcedure (Halt.notProcedure.inj same)
      | _ => cases same
  | arityMismatch callee expected found =>
      cases error' with
      | arityMismatch callee' expected' found' =>
          obtain ⟨views, rfl, rfl⟩ := Halt.arityMismatch.inj same
          exact .arityMismatch views _ _
      | _ => cases same
  | unboundVariable | operand | malformed | emptySequence =>
      cases error' <;> cases same
      all_goals constructor

/-! ## Programs with the same view -/

namespace Outcome

/-- An outcome whose view is a result. -/
theorem exists_of_view_eq_ok {outcome : Outcome Value} {viewed : ValueOver Abstraction}
    (same : outcome.view = .ok viewed) : ∃ value, outcome = .result value ∧ value.view = viewed := by
  cases outcome with
  | result value => exact ⟨value, rfl, Except.ok.inj same⟩
  | failure error => cases same
  | cutOff => cases same

/-- An outcome whose view is that of an error. -/
theorem exists_of_view_eq_error {outcome : Outcome Value} {error : EvalError}
    (same : outcome.view = .error (.ofError Value.view error)) :
    ∃ error', outcome = .failure error' ∧ error.Agrees error' := by
  cases outcome with
  | result value => cases same
  | failure error' => exact ⟨error', rfl, EvalError.agrees_of_view_eq (Except.error.inj same).symm⟩
  | cutOff => cases error <;> cases same

/-- An outcome whose view is cut off. -/
theorem eq_cutOff_of_view {outcome : Outcome Value} (same : outcome.view = .error .cutOff) :
    outcome = .cutOff := by
  cases outcome with
  | result value => cases same
  | failure error => cases error <;> cases same
  | cutOff => rfl

end Outcome

namespace Program

/-- The nameless views of the forms of a program. -/
def view (program : Program) : List Term :=
  program.forms.map (Expr.nameless Value.view [])

/-- A program is evaluated by its view. -/
theorem view_eval (program : Program) (depth : Nat) :
    (program.eval depth).view = Term.sequence (Term.eval depth) [] program.view :=
  Evaluator.view_sequence (Evaluator.view_eval depth) .empty program.forms

/-- Programs agree when both diverge, or both yield values with the same view, or both fail with errors
that agree. -/
inductive Agrees (first second : Program) : Prop
  /-- Both diverge. -/
  | diverge (left : first.Diverges) (right : second.Diverges)
  /-- Both yield values, and these have the same view. -/
  | yield (value value' : Value) (left : first.Yields value) (right : second.Yields value')
      (same : value.view = value'.view)
  /-- Both fail, and with the same data; messages differ in the names of parameters at most. -/
  | fail (error error' : EvalError) (left : first.FailsWith error) (right : second.FailsWith error')
      (agrees : error.Agrees error')
      (sameMessage : error.blankParams.message = error'.blankParams.message)

/-- Programs with the same view agree. -/
theorem agrees_of_view_eq {first second : Program} (same : first.view = second.view) :
    first.Agrees second := by
  have views (depth : Nat) : (second.eval depth).view = (first.eval depth).view := by
    rw [view_eval, view_eval, same]
  -- The second program has at each depth an outcome with the view of the first one's.
  rcases first.diverges_or_settles with diverges | ⟨depth, value, reached⟩ | ⟨depth, error, reached⟩
  · refine .diverge diverges fun depth => Outcome.eq_cutOff_of_view ?_
    rw [views, diverges]
    rfl
  · have viewed := views depth
    rw [reached] at viewed
    obtain ⟨value', reached', equal⟩ := Outcome.exists_of_view_eq_ok viewed
    exact .yield value value' (yields_of_eval reached) (yields_of_eval reached') equal.symm
  · have viewed := views depth
    rw [reached] at viewed
    obtain ⟨error', reached', agrees⟩ := Outcome.exists_of_view_eq_error viewed
    exact .fail error error' (failsWith_of_eval reached) (failsWith_of_eval reached') agrees
      agrees.message_eq

/-- Evaluation does not depend on declared names: a program agrees with itself after its declared names
are replaced by fresh ones, from whatever supply these come. There are such names unless the counter of the
supply runs over, which it does not if there is room for them. -/
theorem agrees_renameWith (program : Program) (supply : NameSupply) :
    ((supply.reserve (Expr.allNamesAll program.forms)).HasRoom program.declarations →
        ∃ renamed after, NameSupply.inWord program.renameWith supply = some (renamed, after)) ∧
      ∀ renamed after, NameSupply.inWord program.renameWith supply = some (renamed, after) →
        program.Agrees renamed := by
  refine ⟨exists_inWord_renameWith, fun renamed after result => ?_⟩
  obtain rfl := NameSupply.result_eq_of_inWord result
  have forms : (program.renameWith.run supply).1.forms =
      ((Expr.renameApart program.forms).run supply).1 := rfl
  refine agrees_of_view_eq ?_
  rw [view, view, forms, Expr.map_nameless_renameApart]

/-- Close below the greatest word there is room for one name, although the first number is taken. -/
theorem agrees_renameWith_last :
    let program : Program := { forms := [.app (.lambda ["x"] [.var "x"]) [.num 1]] }
    let supply : NameSupply :=
      { next := 18446744073709551612, reserved := ["x__18446744073709551612"] }
    let renamed : Program :=
      { forms := [.app (.lambda ["x__18446744073709551613"] [.var "x__18446744073709551613"]) [.num 1]] }
    (supply.reserve (Expr.allNamesAll program.forms)).HasRoom program.declarations ∧
      ∃ after, NameSupply.inWord program.renameWith supply = some (renamed, after) ∧
        program.Agrees renamed := by
  intro program supply renamed
  have room : (supply.reserve (Expr.allNamesAll program.forms)).HasRoom program.declarations := by
    decide
  have run : (program.renameWith.run supply).1 = renamed := by
    unfold program supply renamed
    rfl
  obtain ⟨hasResult, agrees⟩ := agrees_renameWith program supply
  obtain ⟨result, after, found⟩ := hasResult room
  obtain rfl : renamed = result := run.symm.trans (NameSupply.result_eq_of_inWord found)
  exact ⟨room, after, found, agrees renamed after found⟩

end Program

end MiniScheme
