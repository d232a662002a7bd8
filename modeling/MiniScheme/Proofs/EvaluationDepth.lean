import MiniScheme.Evaluation.Evaluator

/-! # Evaluation without a limit on the depth

A greater depth never changes an outcome that is reached. So a program diverges, or it settles: from some
depth on it has one and the same outcome. -/

namespace MiniScheme

namespace Outcome

variable {α β : Type}

/-- Whether the second outcome is what the first becomes when evaluation may go deeper. -/
def GrowsTo (first second : Outcome α) : Prop :=
  first = .cutOff ∨ first = second

/-- Every outcome may stay as it is. -/
theorem GrowsTo.refl (outcome : Outcome α) : outcome.GrowsTo outcome := .inr rfl

/-- An evaluation that goes on with a result. -/
theorem GrowsTo.bind {first second : Outcome α} {next next' : α → Outcome β}
    (now : first.GrowsTo second) (later : ∀ value, (next value).GrowsTo (next' value)) :
    (first >>= next).GrowsTo (second >>= next') := by
  rcases now with cut | same
  · rw [cut]
    exact .inl rfl
  · rw [same]
    cases second with
    | result value => exact later value
    | failure error => exact .inr rfl
    | cutOff => exact .inl rfl

/-- The evaluation of a list. -/
theorem growsTo_mapM {γ : Type} {evaluate evaluate' : γ → Outcome α}
    (each : ∀ item, (evaluate item).GrowsTo (evaluate' item)) (items : List γ) :
    (items.mapM evaluate).GrowsTo (items.mapM evaluate') := by
  induction items with
  | nil => exact .refl _
  | cons item items ih =>
      rw [List.mapM_cons, List.mapM_cons]
      exact (each item).bind fun value => ih.bind fun values => .refl _

end Outcome

namespace Evaluator

open Outcome (GrowsTo)

/-- The evaluation of a sequence. -/
theorem growsTo_sequence {evaluate evaluate' : Environment → Expr → Outcome Value}
    (each : ∀ environment expr, (evaluate environment expr).GrowsTo (evaluate' environment expr))
    (environment : Environment) (forms : List Expr) :
    (sequence evaluate environment forms).GrowsTo (sequence evaluate' environment forms) := by
  induction forms generalizing environment with
  | nil => exact .refl _
  | cons form forms ih =>
      cases form with
      | define name value => exact (each environment value).bind fun result => ih _
      | _ =>
          cases forms with
          | nil => exact each environment _
          | cons next rest => exact (each environment _).bind fun _ => ih environment

/-- An application. -/
theorem growsTo_applyWith {run run' : List Expr → Outcome Value}
    (each : ∀ forms, (run forms).GrowsTo (run' forms)) (procedure : Value) (arguments : List Value) :
    (applyWith run procedure arguments).GrowsTo (applyWith run' procedure arguments) := by
  cases procedure with
  | closure params body =>
      rw [applyWith, applyWith]
      split
      · exact each _
      · exact .refl _
  | _ => exact .refl _

/-- An outcome within a depth stays the same at any greater depth. -/
theorem growsTo_eval {depth more : Nat} (deeper : depth ≤ more) (environment : Environment)
    (expr : Expr) : (eval depth environment expr).GrowsTo (eval more environment expr) := by
  -- By induction on the smaller depth; at depth zero every evaluation is cut off.
  induction depth generalizing more environment expr with
  | zero => exact .inl rfl
  | succ depth ih =>
      obtain ⟨more, rfl⟩ : ∃ less, more = less + 1 := ⟨more - 1, by omega⟩
      have each (environment : Environment) (expr : Expr) :
          (eval depth environment expr).GrowsTo (eval more environment expr) :=
        ih (by omega) environment expr
      cases expr with
      | cond test consequent alternative =>
          refine (each environment test).bind fun value => ?_
          cases value.isTrue with
          | true => exact each environment consequent
          | false => exact each environment alternative
      | app operator operands =>
          refine (each environment operator).bind fun procedure => ?_
          refine (Outcome.growsTo_mapM (each environment) operands).bind fun arguments => ?_
          exact growsTo_applyWith (growsTo_sequence each environment) procedure arguments
      | _ => exact .refl _

end Evaluator

namespace Program

/-- Whether a program has no outcome at any depth. -/
def Diverges (program : Program) : Prop :=
  ∀ depth, program.eval depth = .cutOff

/-- Whether a program yields a value when evaluation may go deep enough. -/
def Yields (program : Program) (value : Value) : Prop :=
  ∃ depth, ∀ more, depth ≤ more → program.eval more = .result value

/-- Whether a program fails with an error when evaluation may go deep enough. -/
def FailsWith (program : Program) (error : EvalError) : Prop :=
  ∃ depth, ∀ more, depth ≤ more → program.eval more = .failure error

/-- An outcome that is reached at some depth is reached at every greater depth. -/
theorem eval_of_le {program : Program} {depth more : Nat} (deeper : depth ≤ more)
    (reached : program.eval depth ≠ .cutOff) : program.eval more = program.eval depth := by
  have grows : (program.eval depth).GrowsTo (program.eval more) :=
    Evaluator.growsTo_sequence (Evaluator.growsTo_eval deeper) .empty program.forms
  exact (grows.resolve_left reached).symm

/-- A value that is reached at some depth is what the program yields. -/
theorem yields_of_eval {program : Program} {depth : Nat} {value : Value}
    (reached : program.eval depth = .result value) : program.Yields value := by
  refine ⟨depth, fun more deeper => ?_⟩
  rw [eval_of_le deeper (by simp [reached]), reached]

/-- An error that is reached at some depth is what the program fails with. -/
theorem failsWith_of_eval {program : Program} {depth : Nat} {error : EvalError}
    (reached : program.eval depth = .failure error) : program.FailsWith error := by
  refine ⟨depth, fun more deeper => ?_⟩
  rw [eval_of_le deeper (by simp [reached]), reached]

/-- Every program diverges, yields a value or fails with an error. -/
theorem diverges_or_settles (program : Program) :
    program.Diverges ∨ (∃ depth value, program.eval depth = .result value) ∨
      ∃ depth error, program.eval depth = .failure error := by
  by_cases diverges : program.Diverges
  · exact .inl diverges
  -- At some depth the program is not cut off, so it has an outcome there.
  · obtain ⟨depth, reached⟩ := Classical.not_forall.1 diverges
    cases outcome : program.eval depth with
    | result value => exact .inr (.inl ⟨depth, value, outcome⟩)
    | failure error => exact .inr (.inr ⟨depth, error, outcome⟩)
    | cutOff => exact absurd outcome reached

end Program

end MiniScheme
