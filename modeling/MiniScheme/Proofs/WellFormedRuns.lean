import MiniScheme.Proofs.Evaluable
import MiniScheme.Proofs.EvaluationDepth
import MiniScheme.Proofs.Sequences

/-! # Runs of programs that are parsed

In an environment of evaluable values, an evaluable expression yields an evaluable value or fails for what
the program does, and never because of the shape of an expression. The parser makes programs whose forms
have evaluable contents once local bindings are replaced. So a source text is never found to be malformed
when it runs, and nothing is left to evaluate only where the last form of a program is a definition. -/

namespace MiniScheme

/-! ## Proper outcomes -/

/-- Whether an error is due to what a program does, and not to the shape of an expression. -/
def EvalError.IsProper : EvalError → Prop
  | .malformed _ | .emptySequence => False
  | _ => True

namespace Outcome

variable {α β : Type} {kind : α → Prop}

/-- Whether a result is of some kind, and an error proper. -/
def Meets (kind : α → Prop) : Outcome α → Prop
  | .result value => kind value
  | .failure error => error.IsProper
  | .cutOff => True

/-- An evaluation that goes on with a result of the kind. -/
theorem Meets.bind {kind' : β → Prop} {outcome : Outcome α} {next : α → Outcome β}
    (now : outcome.Meets kind) (later : ∀ value, kind value → (next value).Meets kind') :
    (outcome >>= next).Meets kind' := by
  cases outcome with
  | result value => exact later value now
  | failure error => exact now
  | cutOff => trivial

/-- The evaluation of a list. -/
theorem meets_mapM {γ : Type} {evaluate : γ → Outcome α} {items : List γ}
    (each : ∀ item ∈ items, (evaluate item).Meets kind) :
    (items.mapM evaluate).Meets fun values => ∀ value ∈ values, kind value := by
  induction items with
  | nil => exact List.forall_mem_nil _
  | cons item items ih =>
      rw [List.forall_mem_cons] at each
      rw [List.mapM_cons]
      refine each.1.bind fun value first => (ih each.2).bind fun values others => ?_
      exact List.forall_mem_cons.2 ⟨first, others⟩

end Outcome

open Outcome (Meets meets_mapM)

namespace Environment

/-- Whether the values of all names are evaluable. -/
def Evaluable (environment : Environment) : Prop :=
  ∀ name value, environment.lookup name = .ok value → value.Evaluable

/-- Without definitions there are no values. -/
theorem evaluable_empty : empty.Evaluable := by
  intro name value found
  cases found

/-- A definition of an evaluable value. -/
theorem Evaluable.extend {environment : Environment} (evaluable : environment.Evaluable) (name : String)
    {value : Value} (added : value.Evaluable) : (environment.extend name value).Evaluable := by
  intro other result found
  by_cases same : other = name
  · rw [same, lookup_extend_self] at found
    obtain rfl := Except.ok.inj found
    exact added
  · rw [lookup_extend_of_ne _ _ same] at found
    exact evaluable other result found

/-- Looking up a name yields an evaluable value or finds the name unbound. -/
theorem Evaluable.meets_lookup {environment : Environment} (evaluable : environment.Evaluable)
    (name : String) : (Outcome.ofExcept (environment.lookup name)).Meets Value.Evaluable := by
  cases found : environment.lookup name with
  | ok value => exact evaluable name value found
  | error error =>
      rw [lookup] at found
      split at found
      · cases found
      · obtain rfl := Except.error.inj found
        trivial

end Environment

/-! ## Evaluation -/

namespace Evaluator

variable {environment : Environment}

/-- An evaluable expression is no definition. -/
theorem target?_eq_none_of_evaluable {expr : Expr} (evaluable : expr.Evaluable) :
    expr.target? = none := by
  cases expr with
  | define name value => exact evaluable.elim
  | _ => rfl

/-- A sequence of evaluable forms, of which there is one, meets what its forms meet. -/
theorem meets_sequence {evaluate : Environment → Expr → Outcome Value} {forms : List Expr}
    (each : ∀ form ∈ forms, (evaluate environment form).Meets Value.Evaluable)
    (evaluable : ∀ form ∈ forms, form.Evaluable) (nonempty : forms ≠ []) :
    (sequence evaluate environment forms).Meets Value.Evaluable := by
  induction forms with
  | nil => exact absurd rfl nonempty
  | cons form forms ih =>
      rw [List.forall_mem_cons] at each evaluable
      have plain := target?_eq_none_of_evaluable evaluable.1
      by_cases more : forms = []
      · rw [more, sequence_singleton plain]
        exact each.1
      · rw [sequence_cons plain more]
        exact each.1.bind fun _ _ => ih each.2 evaluable.2 more

/-- The application of an evaluable value to evaluable arguments meets what evaluable forms meet. -/
theorem meets_applyWith {run : List Expr → Outcome Value}
    (each : ∀ forms, forms ≠ [] → (∀ form ∈ forms, form.Evaluable) → (run forms).Meets Value.Evaluable)
    {procedure : Value} {arguments : List Value} (evaluable : procedure.Evaluable)
    (given : ∀ argument ∈ arguments, argument.Evaluable) :
    (applyWith run procedure arguments).Meets Value.Evaluable := by
  cases procedure with
  | prim op =>
      rw [applyWith]
      cases applied : op.apply arguments with
      | ok value => exact Primitive.evaluable_apply given applied
      | error error =>
          rcases Primitive.error_of_apply applied with ⟨expected, found, rfl⟩ | ⟨fault, rfl⟩
          · trivial
          · trivial
  | closure params body =>
      rw [applyWith]
      by_cases sameNumber : params.length = arguments.length
      · rw [if_pos sameNumber]
        obtain ⟨nonempty, forms⟩ := evaluable_instantiate sameNumber evaluable given
        exact each _ nonempty forms
      · rw [if_neg sameNumber]
        trivial
  | _ => trivial

/-- In an environment of evaluable values, an evaluable expression yields an evaluable value or fails
properly. -/
theorem meets_eval (depth : Nat) (values : environment.Evaluable) {expr : Expr}
    (evaluable : expr.Evaluable) : (eval depth environment expr).Meets Value.Evaluable := by
  induction depth generalizing expr with
  | zero => trivial
  | succ depth ih =>
      cases expr with
      | num | bool | str | prim => trivial
      | lit value => exact evaluable
      | var name => exact values.meets_lookup name
      | lambda params body => exact evaluable
      | cond test consequent alternative =>
          obtain ⟨inTest, inConsequent, inAlternative⟩ := evaluable
          refine (ih inTest).bind fun value _ => ?_
          cases value.isTrue with
          | true => exact ih inConsequent
          | false => exact ih inAlternative
      | app operator operands =>
          rw [Expr.Evaluable, Expr.evaluableAll_iff] at evaluable
          obtain ⟨inOperator, inOperands⟩ := evaluable
          have arguments := meets_mapM fun operand member => ih (inOperands operand member)
          refine (ih inOperator).bind fun procedure applied => arguments.bind fun arguments given => ?_
          -- The forms that remain of a procedure are evaluated one level deeper.
          refine meets_applyWith (fun forms nonempty forms' => ?_) applied given
          exact meets_sequence (fun form member => ih (forms' form member)) forms' nonempty
      | letIn | define => exact evaluable.elim

/-- Forms with evaluable contents lead to environments of evaluable values only. -/
theorem Leads.evaluable {depth : Nat} {forms : List Expr} {last : Environment}
    (leads : Leads (eval depth) forms environment last) (values : environment.Evaluable)
    (contents : ∀ form ∈ forms, form.content.Evaluable) : last.Evaluable := by
  induction leads with
  | nil => exact values
  | @define name expr _ environment _ _ yields _ ih =>
      rw [List.forall_mem_cons] at contents
      have meets : (eval depth environment expr).Meets Value.Evaluable :=
        meets_eval depth values contents.1
      rw [yields] at meets
      exact ih (values.extend name meets) contents.2
  | form _ _ _ ih => exact ih values (List.forall_mem_cons.1 contents).2

/-- A sequence of forms with evaluable contents fails properly, or because all its forms yield values and
the last is a definition. -/
theorem isProper_or_endsInDefinition {depth : Nat} {forms : List Expr} {error : EvalError}
    (values : environment.Evaluable) (contents : ∀ form ∈ forms, form.content.Evaluable)
    (failed : sequence (eval depth) environment forms = .failure error) :
    error.IsProper ∨ error = .emptySequence ∧ EndsInDefinition forms ∧
      ∃ last, Leads (eval depth) forms environment last := by
  refine (sequence_eq_failure_iff.1 failed).imp_left ?_
  rintro ⟨before, form, after, last, rfl, leads, here⟩
  rw [List.forall_mem_append, List.forall_mem_cons] at contents
  have meets := meets_eval depth (leads.evaluable values contents.1) contents.2.1
  rwa [here] at meets

end Evaluator

/-! ## Source texts -/

/-- What is evaluated of a legible form is evaluable once its local bindings are replaced. -/
theorem Expr.LegibleForm.evaluable_content {form : Expr} (legible : form.LegibleForm) :
    form.eliminateLets.content.Evaluable := by
  cases legible with
  | define _ inValue => exact inValue.evaluable_eliminateLets
  | expr legible =>
      have evaluable := legible.evaluable_eliminateLets
      rwa [content_eq_self (Evaluator.target?_eq_none_of_evaluable evaluable)]

/-- A form is a definition exactly when it is one after its local bindings are replaced. -/
theorem Expr.target?_eliminateLets (form : Expr) : form.eliminateLets.target? = form.target? := by
  cases form <;> rfl

/-- Forms end in a definition exactly when they do after their local bindings are replaced. -/
theorem Program.endsInDefinition_eliminateLets {program : Program} :
    Evaluator.EndsInDefinition program.eliminateLets.forms ↔
      Evaluator.EndsInDefinition program.forms := by
  simp only [Evaluator.EndsInDefinition, Program.eliminateLets, List.getLast?_map, Option.mem_def,
    Option.map_eq_some_iff, forall_exists_index, and_imp, forall_apply_eq_imp_iff₂,
    Expr.target?_eliminateLets]

/-- A program that is parsed fails properly, or because all its forms yield values and the last is a
definition. -/
theorem Program.isProper_or_endsInDefinition {source : String} {program : Program}
    (parsed : Program.parse source = .ok program) {depth : Nat} {error : EvalError}
    (failed : program.eliminateLets.eval depth = .failure error) :
    error.IsProper ∨ error = .emptySequence ∧ Evaluator.EndsInDefinition program.forms ∧
      ∃ last, Evaluator.Leads (Evaluator.eval depth) program.eliminateLets.forms .empty last := by
  have contents : ∀ form ∈ program.eliminateLets.forms, form.content.Evaluable :=
    List.forall_mem_map.2 fun form member => ((legible_of_parse parsed).forms form member).evaluable_content
  rw [← endsInDefinition_eliminateLets]
  exact Evaluator.isProper_or_endsInDefinition Environment.evaluable_empty contents failed

/-- The run of a source text fails as the program without local bindings does. -/
theorem runSource_eq_failure_iff {depth : Nat} {source : String} {error : EvalError} :
    runSource depth source = .ok (.failure error) ↔ ∃ program, Program.parse source = .ok program ∧
      program.eliminateLets.eval depth = .failure error := by
  rw [runSource, bind_eq_ok_iff]
  refine exists_congr fun program => and_congr_right fun _ => ?_
  exact ⟨Except.ok.inj, congrArg Except.ok⟩

/-- Whether the run of a source text fails with an error when evaluation may go deep enough. -/
def SourceFailsWith (source : String) (error : EvalError) : Prop :=
  ∃ depth, ∀ more, depth ≤ more → runSource more source = .ok (.failure error)

/-- The procedure that an application renames is a procedure after that, and what remains of it are its
forms with the arguments in place of its parameters. -/
theorem Evaluator.exists_lambda_renameApart (params : List String) (body : List Expr)
    (arguments : List Value) :
    ∃ renamed forms,
      ((Expr.renameApart [.lambda params body]).run
        (NameSupply.initial.reserve (Expr.allNamesAll (arguments.map Value.toExpr)))).1 =
          [.lambda renamed forms] ∧
      instantiate params body arguments =
        Expr.substAll (.ofLists renamed (arguments.map Value.toExpr)) forms := by
  have names : Expr.allNamesAll [.lambda params body] = (Expr.lambda params body).allNames := by
    rw [Expr.allNamesAll, Expr.allNamesAll, List.append_nil]
  rw [Expr.renameApart, names]
  exact ⟨_, _, rfl, rfl⟩

/-- Whatever the source text, its run never finds an expression malformed, however deep it goes. It finds
nothing left to evaluate exactly when the text is parsed, its last form is a definition, and all its forms,
the value of that definition included, yield values. And what an application renames is a procedure again,
whatever the procedure and the arguments. -/
theorem runSource_never_malformed (source : String) :
    (∀ depth fault, runSource depth source ≠ .ok (.failure (.malformed fault))) ∧
    (SourceFailsWith source .emptySequence ↔
      ∃ program before name value, Program.parse source = .ok program ∧
        program.forms = before ++ [.define name value] ∧
        ∃ depth last,
          Evaluator.Leads (Evaluator.eval depth) program.eliminateLets.forms .empty last) ∧
    ∀ params body arguments, ∃ renamed forms,
      ((Expr.renameApart [.lambda params body]).run
        (NameSupply.initial.reserve (Expr.allNamesAll (arguments.map Value.toExpr)))).1 =
          [.lambda renamed forms] ∧
      Evaluator.instantiate params body arguments =
        Expr.substAll (.ofLists renamed (arguments.map Value.toExpr)) forms := by
  refine ⟨?_, ⟨?_, ?_⟩, Evaluator.exists_lambda_renameApart⟩
  · intro depth fault failed
    obtain ⟨program, parsed, failed⟩ := runSource_eq_failure_iff.1 failed
    rcases Program.isProper_or_endsInDefinition parsed failed with proper | ⟨empty, -⟩
    · exact proper
    · cases empty
  · rintro ⟨depth, fails⟩
    obtain ⟨program, parsed, failed⟩ := runSource_eq_failure_iff.1 (fails depth (Nat.le_refl depth))
    rcases Program.isProper_or_endsInDefinition parsed failed with proper | ⟨-, ends, last, leads⟩
    · exact proper.elim
    · have nonempty := (Program.legible_of_parse parsed).nonempty
      obtain ⟨before, name, value, split⟩ := (Evaluator.endsInDefinition_iff nonempty).1 ends
      exact ⟨program, before, name, value, parsed, split, depth, last, leads⟩
  · rintro ⟨program, before, name, value, parsed, split, depth, last, leads⟩
    have nonempty := (Program.legible_of_parse parsed).nonempty
    have ends := (Evaluator.endsInDefinition_iff nonempty).2 ⟨before, name, value, split⟩
    have failed := leads.sequence_eq (Program.endsInDefinition_eliminateLets.2 ends)
    obtain ⟨depth, fails⟩ := Program.failsWith_of_eval failed
    exact ⟨depth, fun more deeper => runSource_eq_failure_iff.2 ⟨program, parsed, fails more deeper⟩⟩

/-- Nothing is left to evaluate after a definition that calls a procedure defined before. -/
theorem runSource_never_malformed_definitions :
    SourceFailsWith "(define f (lambda (x) x)) (define y (f #t))" .emptySequence := by
  have tokens : Token.ofText "(define f (lambda (x) x)) (define y (f #t))" =
      [⟨.opening, 0, 1⟩, ⟨.atom "define", 1, 7⟩, ⟨.atom "f", 8, 9⟩, ⟨.opening, 10, 11⟩,
        ⟨.atom "lambda", 11, 17⟩, ⟨.opening, 18, 19⟩, ⟨.atom "x", 19, 20⟩, ⟨.closing, 20, 21⟩,
        ⟨.atom "x", 22, 23⟩, ⟨.closing, 23, 24⟩, ⟨.closing, 24, 25⟩, ⟨.opening, 26, 27⟩,
        ⟨.atom "define", 27, 33⟩, ⟨.atom "y", 34, 35⟩, ⟨.opening, 36, 37⟩, ⟨.atom "f", 37, 38⟩,
        ⟨.atom "#t", 39, 41⟩, ⟨.closing, 41, 42⟩, ⟨.closing, 42, 43⟩] := by
    decide +kernel
  have trees : SExpr.parse "(define f (lambda (x) x)) (define y (f #t))" =
      .ok [.list [.atom "define", .atom "f", .list [.atom "lambda", .list [.atom "x"], .atom "x"]],
        .list [.atom "define", .atom "y", .list [.atom "f", .atom "#t"]]] := by
    rw [SExpr.parse, SExpr.ofText_of_le (by decide +kernel), tokens]
    rfl
  have parsed : Program.parse "(define f (lambda (x) x)) (define y (f #t))" = .ok { forms := [
      .define "f" (.lambda ["x"] [.var "x"]), .define "y" (.app (.var "f") [.bool true])] } := by
    rw [Program.parse, trees]
    rfl
  have leads : Evaluator.Leads (Evaluator.eval 3)
      [.define "f" (.lambda ["x"] [.var "x"]), .define "y" (.app (.var "f") [.bool true])] .empty _ :=
    .define rfl (.define rfl (.nil _))
  exact (runSource_never_malformed _).2.1.2
    ⟨_, [.define "f" (.lambda ["x"] [.var "x"])], "y", _, parsed, rfl, 3, _, leads⟩

end MiniScheme
