import MiniScheme.Evaluation.Error

/-! # Outcomes of evaluation

An evaluation is cut off at a given depth, so there are three outcomes: a result, an error, or none
within that depth. An evaluation that has no outcome at any depth diverges. -/

namespace MiniScheme

/-- What comes of an evaluation that is cut off at some depth. -/
inductive Outcome (α : Type) where
  /-- The evaluation yields a result. -/
  | result (value : α)
  /-- The evaluation fails. -/
  | failure (error : EvalError)
  /-- The evaluation goes deeper than allowed. -/
  | cutOff

namespace Outcome

variable {α β : Type}

/-- Continues with the result, if there is one. -/
def andThen (outcome : Outcome α) (next : α → Outcome β) : Outcome β :=
  match outcome with
  | .result value => next value
  | .failure error => .failure error
  | .cutOff => .cutOff

instance : Monad Outcome where
  pure := .result
  bind := .andThen

/-- An outcome of a computation that always ends. -/
def ofExcept : Except EvalError α → Outcome α
  | .ok value => .result value
  | .error error => .failure error

instance : LawfulMonad Outcome :=
  LawfulMonad.mk' _
    (fun outcome => by cases outcome <;> rfl)
    (fun _ _ => rfl)
    (fun outcome _ _ => by cases outcome <;> rfl)

end Outcome

end MiniScheme
