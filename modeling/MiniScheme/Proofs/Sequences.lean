import MiniScheme.Evaluation.Evaluator
import MiniScheme.Proofs.Declarations

/-! # How sequences fail

The forms of a sequence are evaluated one after the other, and definitions extend the environment of the
forms after them. A sequence fails at the first of its forms that fails, or, if none of them does and the
last is a definition, because nothing is left that could yield a value. -/

namespace MiniScheme

/-- An evaluation that goes on fails first or later. -/
theorem Outcome.failure_of_bind {α β : Type} {outcome : Outcome α} {next : α → Outcome β}
    {error : EvalError} (failed : outcome >>= next = .failure error) :
    outcome = .failure error ∨ ∃ value, outcome = .result value ∧ next value = .failure error := by
  cases outcome with
  | result value => exact .inr ⟨value, rfl, failed⟩
  | failure error' => exact .inl (congrArg Outcome.failure (Outcome.failure.inj failed))
  | cutOff => cases failed

/-- The content of a form that is no definition is the form. -/
theorem Expr.content_eq_self {form : Expr} (plain : form.target? = none) : form.content = form := by
  cases form with
  | define name value => cases plain
  | _ => rfl

namespace Evaluator

/-- Whether forms, each of which yields a value, lead from one environment to another. -/
inductive Leads (evaluate : Environment → Expr → Outcome Value) :
    List Expr → Environment → Environment → Prop
  /-- No form leads to another environment. -/
  | nil (environment : Environment) : Leads evaluate [] environment environment
  /-- A definition extends the environment by its value. -/
  | define {name : String} {expr : Expr} {forms : List Expr} {environment last : Environment}
      {value : Value} (yields : evaluate environment expr = .result value)
      (rest : Leads evaluate forms (environment.extend name value) last) :
      Leads evaluate (.define name expr :: forms) environment last
  /-- Any other form leaves the environment as it is. -/
  | form {form : Expr} {forms : List Expr} {environment last : Environment} {value : Value}
      (plain : form.target? = none) (yields : evaluate environment form = .result value)
      (rest : Leads evaluate forms environment last) : Leads evaluate (form :: forms) environment last

/-- Whether no form is left to yield a value: the last form, if there is one, is a definition. -/
def EndsInDefinition (forms : List Expr) : Prop :=
  ∀ form ∈ forms.getLast?, form.target? ≠ none

/-- The first of several forms is the last only if no other comes after it. -/
theorem endsInDefinition_cons_iff {form : Expr} {forms : List Expr} :
    EndsInDefinition (form :: forms) ↔ (forms = [] → form.target? ≠ none) ∧ EndsInDefinition forms := by
  cases forms with
  | nil => simp [EndsInDefinition]
  | cons next rest => simp [EndsInDefinition, List.getLast?_cons_cons]

/-- Forms that end in a definition are a definition and the forms before it. -/
theorem endsInDefinition_iff {forms : List Expr} (nonempty : forms ≠ []) :
    EndsInDefinition forms ↔ ∃ before name value, forms = before ++ [.define name value] := by
  constructor
  · intro ends
    have split := List.dropLast_append_getLast nonempty
    have target := ends _ (List.getLast?_eq_some_getLast nonempty)
    cases last : forms.getLast nonempty with
    | define name value =>
        rw [last] at split
        exact ⟨forms.dropLast, name, value, split.symm⟩
    | _ =>
        rw [last] at target
        exact absurd rfl target
  · rintro ⟨before, name, value, rfl⟩ form last
    rw [List.getLast?_concat] at last
    obtain rfl := Option.some.inj last
    exact nofun

variable {evaluate : Environment → Expr → Outcome Value} {environment last : Environment}
  {form : Expr} {forms : List Expr}

/-- The value of a sequence is that of its last form, if this is no definition. -/
theorem sequence_singleton (plain : form.target? = none) :
    sequence evaluate environment [form] = evaluate environment form := by
  cases form with
  | define name value => cases plain
  | _ => rfl

/-- The value of any other form that is no definition is discarded. -/
theorem sequence_cons (plain : form.target? = none) (more : forms ≠ []) :
    sequence evaluate environment (form :: forms) =
      evaluate environment form >>= fun _ => sequence evaluate environment forms := by
  obtain ⟨next, rest, rfl⟩ := List.exists_cons_of_ne_nil more
  cases form with
  | define name value => cases plain
  | _ => rfl

/-- A sequence fails if what is evaluated of its first form fails. -/
theorem sequence_of_failure {error : EvalError}
    (failed : evaluate environment form.content = .failure error) :
    sequence evaluate environment (form :: forms) = .failure error := by
  cases target : form.target? with
  | some name =>
      cases form with
      | define name value =>
          rw [sequence, show evaluate environment value = _ from failed]
          rfl
      | _ => cases target
  | none =>
      rw [Expr.content_eq_self target] at failed
      by_cases more : forms = []
      · rw [more, sequence_singleton target, failed]
      · rw [sequence_cons target more, failed]
        rfl

/-- Forms lead on from where the forms before them lead to. -/
theorem Leads.append {between : Environment} {rest : List Expr}
    (first : Leads evaluate forms environment between) (second : Leads evaluate rest between last) :
    Leads evaluate (forms ++ rest) environment last := by
  induction first with
  | nil => exact second
  | define yields _ ih => exact .define yields (ih second)
  | form plain yields _ ih => exact .form plain yields (ih second)

/-- A sequence that fails either fails at its first form, or that form yields a value and the others fail as
a sequence; unless the first form is a definition, there are others. -/
theorem exists_of_sequence_cons {error : EvalError}
    (failed : sequence evaluate environment (form :: forms) = .failure error) :
    evaluate environment form.content = .failure error ∨
      ∃ next, Leads evaluate [form] environment next ∧
        sequence evaluate next forms = .failure error ∧ (forms = [] → form.target? ≠ none) := by
  cases target : form.target? with
  | some name =>
      cases form with
      | define name expr =>
          rcases Outcome.failure_of_bind failed with here | ⟨value, yields, later⟩
          · exact .inl here
          · exact .inr ⟨_, .define yields (.nil _), later, fun _ => nofun⟩
      | _ => cases target
  | none =>
      rw [Expr.content_eq_self target]
      by_cases more : forms = []
      · rw [more, sequence_singleton target] at failed
        exact .inl failed
      · rw [sequence_cons target more] at failed
        rcases Outcome.failure_of_bind failed with here | ⟨value, yields, later⟩
        · exact .inl here
        · exact .inr ⟨environment, .form target yields (.nil environment), later, fun empty =>
            absurd empty more⟩

/-- Forms that yield values hand the environment that they lead to over to the forms after them. -/
theorem Leads.sequence_append (leads : Leads evaluate forms environment last) {rest : List Expr}
    (more : rest ≠ []) :
    sequence evaluate environment (forms ++ rest) = sequence evaluate last rest := by
  induction leads with
  | nil => rfl
  | define yields _ ih =>
      rw [List.cons_append, sequence, yields]
      exact ih
  | @form _ forms _ _ _ plain yields _ ih =>
      have further : forms ++ rest ≠ [] := List.append_ne_nil_of_right_ne_nil forms more
      rw [List.cons_append, sequence_cons plain further, yields]
      exact ih

/-- Forms that yield values and end in a definition leave nothing to evaluate. -/
theorem Leads.sequence_eq (leads : Leads evaluate forms environment last)
    (ends : EndsInDefinition forms) : sequence evaluate environment forms = .failure .emptySequence := by
  induction leads with
  | nil => rfl
  | define yields _ ih =>
      rw [sequence, yields]
      exact ih (endsInDefinition_cons_iff.1 ends).2
  | @form form forms _ _ _ plain yields _ ih =>
      obtain ⟨more, ends⟩ := endsInDefinition_cons_iff.1 ends
      rw [sequence_cons plain fun empty => more empty plain, yields]
      exact ih ends

/-- A sequence fails at one of its forms after those before have yielded values, or because all its forms
yield values and the last is a definition. -/
theorem sequence_eq_failure_iff {error : EvalError} :
    sequence evaluate environment forms = .failure error ↔
      (∃ before form after last, forms = before ++ form :: after ∧
        Leads evaluate before environment last ∧ evaluate last form.content = .failure error) ∨
      error = .emptySequence ∧ EndsInDefinition forms ∧
        ∃ last, Leads evaluate forms environment last := by
  constructor
  · intro failed
    induction forms generalizing environment with
    | nil => exact .inr ⟨(Outcome.failure.inj failed).symm, nofun, environment, .nil environment⟩
    | cons form forms ih =>
        rcases exists_of_sequence_cons failed with here | ⟨next, first, later, others⟩
        · exact .inl ⟨[], form, forms, environment, rfl, .nil environment, here⟩
        rcases ih later with ⟨before, other, after, last, rfl, leads, here⟩ | ⟨empty, ends, last, leads⟩
        · exact .inl ⟨form :: before, other, after, last, rfl, first.append leads, here⟩
        · exact .inr ⟨empty, endsInDefinition_cons_iff.2 ⟨others, ends⟩, last, first.append leads⟩
  · rintro (⟨before, form, after, last, rfl, leads, here⟩ | ⟨rfl, ends, last, leads⟩)
    · rw [leads.sequence_append (List.cons_ne_nil form after), sequence_of_failure here]
    · exact leads.sequence_eq ends

/-- A sequence that fails, and not for want of a form, fails at one of its forms. -/
theorem exists_of_sequence_eq_failure {error : EvalError}
    (failed : sequence evaluate environment forms = .failure error) (other : error ≠ .emptySequence) :
    ∃ before form after last, forms = before ++ form :: after ∧
      Leads evaluate before environment last ∧ evaluate last form.content = .failure error :=
  (sequence_eq_failure_iff.1 failed).resolve_right fun ⟨empty, _⟩ => other empty

end Evaluator

end MiniScheme
