import MiniScheme.Proofs.Coincidence
import MiniScheme.Proofs.EvaluationDepth
import MiniScheme.Proofs.Sequences

/-! # Names stay in their scope

An evaluation comes upon no free names but those of the program. Names that are declared, and names that
applications generate, are found neither in an error about an unbound name nor free in a procedure that a
program yields. A name that is defined is bound in every form after the definition. -/

namespace MiniScheme

/-! ## Data that the reader makes -/

/-- Quoted data hold no procedures. -/
theorem Value.Legible.holdsNoProcedure {value : Value} (legible : value.Legible) :
    value.HoldsNoProcedure := by
  induction legible with
  | number | bool | string | symbol | nil => trivial
  | cons noDot first second ihCar ihCdr => exact ⟨ihCar, ihCdr⟩

/-- The literals of a legible expression hold no procedures. -/
theorem Expr.Legible.literals_holdNoProcedure {expr : Expr} (legible : expr.Legible) :
    ∀ value ∈ expr.literals, value.HoldsNoProcedure := by
  induction legible with
  | num | bool | str | var | prim => exact List.forall_mem_nil _
  | lit data => exact List.forall_mem_singleton.2 data.holdsNoProcedure
  | cond _ _ _ ihTest ihConsequent ihAlternative =>
      exact List.forall_mem_append.2 ⟨List.forall_mem_append.2 ⟨ihTest, ihConsequent⟩, ihAlternative⟩
  | lambda _ _ _ _ ihBody =>
      rw [literals, literalsAll_eq_flatMap, List.forall_mem_flatMap]
      exact ihBody
  | app _ _ _ ihOperator ihOperands =>
      rw [literals, literalsAll_eq_flatMap, List.forall_mem_append, List.forall_mem_flatMap]
      exact ⟨ihOperator, ihOperands⟩
  | letIn _ _ _ _ _ ihBindings ihBody =>
      rw [literals, literalsAll_eq_flatMap, literalsBound_eq_flatMap, List.forall_mem_append,
        List.forall_mem_flatMap, List.forall_mem_flatMap]
      exact ⟨ihBindings, ihBody⟩

/-- The literals of a parsed program hold no procedures. -/
theorem Program.literals_holdNoProcedure_of_parse {source : String} {program : Program}
    (parsed : Program.parse source = .ok program) : ∀ value ∈ program.literals, value.HoldsNoProcedure := by
  refine List.forall_mem_flatMap.2 fun form member => ?_
  cases (legible_of_parse parsed).forms form member with
  | define _ inValue => exact inValue.literals_holdNoProcedure
  | expr legible => exact legible.literals_holdNoProcedure

/-! ## Names in the environments that forms lead to -/

namespace Evaluator

variable {evaluate : Environment → Expr → Outcome Value} {environment last : Environment}
  {forms : List Expr}

/-- A name that is bound stays bound. -/
theorem Leads.bound {name : String} (leads : Leads evaluate forms environment last)
    (bound : ∃ value, environment.lookup name = .ok value) : ∃ value, last.lookup name = .ok value := by
  induction leads with
  | nil => exact bound
  | form _ _ _ ih => exact ih bound
  | @define target _ _ _ _ value _ _ ih =>
      apply ih
      by_cases same : name = target
      · exact ⟨value, by rw [same, Environment.lookup_extend_self]⟩
      · rwa [Environment.lookup_extend_of_ne _ _ same]

/-- A name that a form defines is bound. -/
theorem Leads.bound_of_target {name : String} (leads : Leads evaluate forms environment last)
    {form : Expr} (member : form ∈ forms) (target : form.target? = some name) :
    ∃ value, last.lookup name = .ok value := by
  induction leads with
  | nil => cases member
  | form plain _ _ ih =>
      rcases List.mem_cons.1 member with rfl | further
      · rw [plain] at target
        cases target
      · exact ih further
  | define _ rest ih =>
      rcases List.mem_cons.1 member with rfl | further
      · obtain rfl := Option.some.inj target
        exact rest.bound ⟨_, Environment.lookup_extend_self _ _ _⟩
      · exact ih further

/-- Forms that refer to allowed names only keep definitions to such names. -/
theorem Leads.alike {allowed missing : String → Prop} {depth : Nat}
    (leads : Leads (eval depth) forms environment last)
    (alike : Environment.Alike allowed missing environment environment)
    (within : ∀ form ∈ forms, form.RefersWithin allowed) :
    Environment.Alike allowed missing last last := by
  induction leads with
  | nil => exact alike
  | form _ _ _ ih => exact ih alike (List.forall_mem_cons.1 within).2
  | define yields _ ih =>
      obtain ⟨here, rest⟩ := List.forall_mem_cons.1 within
      have sound := (coincides_eval depth _ _ alike _ here.define).sound _ yields
      exact ih (alike.extend _ sound) rest

end Evaluator

/-! ## Programs -/

/-- What is evaluated of a form refers to what the form refers to. -/
theorem Expr.RefersWithin.content {allowed : String → Prop} {form : Expr}
    (within : form.RefersWithin allowed) : form.content.RefersWithin allowed := by
  cases form with
  | define name value => exact within.define
  | _ => exact within

namespace Program

/-- Whether a program fails at a form after the forms before have yielded values. -/
def FailsAt (program : Program) (before : List Expr) (form : Expr) (error : EvalError) : Prop :=
  ∃ depth after environment, program.forms = before ++ form :: after ∧
    Evaluator.Leads (Evaluator.eval depth) before .empty environment ∧
      Evaluator.eval depth environment form.content = .failure error

variable {program : Program} {allowed : String → Prop}

/-- Without definitions, every allowed name may be missing. -/
theorem alike_empty (allowed : String → Prop) :
    Environment.Alike allowed allowed .empty .empty := by
  intro name known
  refine ⟨rfl, nofun, fun other same => ?_⟩
  obtain rfl := EvalError.unboundVariable.inj (Outcome.failure.inj same)
  exact known

/-- A program that refers to allowed names only yields a value that refers to such names, or else it may
find such a name unbound. -/
theorem coincides_eval (depth : Nat) (within : ∀ form ∈ program.forms, form.RefersWithin allowed) :
    Outcome.Coincides (Value.RefersWithin allowed) allowed (program.eval depth) (program.eval depth) :=
  Evaluator.coincides_sequence (Evaluator.coincides_eval depth) (alike_empty allowed) within

/-- A name that is unbound where a program fails is allowed, and no form before defines it. -/
theorem FailsAt.unbound {before : List Expr} {form : Expr} {name : String}
    (fails : program.FailsAt before form (.unboundVariable name))
    (within : ∀ form ∈ program.forms, form.RefersWithin allowed) :
    allowed name ∧ ∀ earlier ∈ before, earlier.target? ≠ some name := by
  obtain ⟨depth, after, last, whole, leads, here⟩ := fails
  rw [whole, List.forall_mem_append, List.forall_mem_cons] at within
  have alike := leads.alike (alike_empty allowed) within.1
  -- Where the program fails, the names that may be missing are those that no definition has bound yet.
  have unbound := Environment.alike_of_agree (fun _ _ => rfl) fun _ known _ => alike.refersWithin known
  obtain ⟨known, missing⟩ :=
    (Evaluator.coincides_eval depth last last unbound _ within.2.1.content).absent name here
  refine ⟨known, fun earlier member target => ?_⟩
  obtain ⟨value, bound⟩ := leads.bound_of_target member target
  exact missing value bound

/-- The forms of a program whose literals hold no procedures refer to the free names of the program. -/
theorem forms_referWithin (plain : ∀ value ∈ program.literals, value.HoldsNoProcedure) :
    ∀ form ∈ program.forms, form.RefersWithin (· ∈ Expr.freeNamesAll program.forms) := by
  intro form member
  refine ⟨fun name free => ?_, fun value literal => ?_⟩
  · rw [Expr.freeNamesAll_eq_flatMap]
    exact List.mem_flatMap.2 ⟨form, member, free⟩
  · exact (plain value (List.mem_flatMap.2 ⟨form, member, literal⟩)).refersWithin

/-- Names that are declared or generated never escape. If the literals of a program hold no procedures,
as those of a parsed program never do, then a name that is found unbound is free in the program, and no form
before the one that fails defines it, wherever else there are definitions; and procedures in the value that
the program yields, at any depth, refer only to names that are free in the program. -/
theorem names_stay_in_scope :
    (∀ source program, Program.parse source = .ok program →
      ∀ value ∈ program.literals, value.HoldsNoProcedure) ∧
    ∀ program : Program, (∀ value ∈ program.literals, value.HoldsNoProcedure) →
      (∀ name, program.FailsWith (.unboundVariable name) →
        name ∈ Expr.freeNamesAll program.forms ∧
          (∃ before form, program.FailsAt before form (.unboundVariable name)) ∧
          ∀ before form, program.FailsAt before form (.unboundVariable name) →
            ∀ earlier ∈ before, earlier.target? ≠ some name) ∧
      ∀ value, program.Yields value →
        ∀ name ∈ value.freeNames, name ∈ Expr.freeNamesAll program.forms := by
  refine ⟨fun source program parsed => literals_holdNoProcedure_of_parse parsed, fun program plain => ?_⟩
  have within := forms_referWithin plain
  refine ⟨?_, ?_⟩
  · rintro name ⟨depth, fails⟩
    obtain ⟨before, form, after, last, whole, leads, here⟩ :=
      Evaluator.exists_of_sequence_eq_failure (fails depth (Nat.le_refl depth)) nofun
    have stops : program.FailsAt before form (.unboundVariable name) :=
      ⟨depth, after, last, whole, leads, here⟩
    exact ⟨(stops.unbound within).1, ⟨before, form, stops⟩, fun before form stops =>
      (stops.unbound within).2⟩
  · rintro value ⟨depth, yields⟩
    exact (coincides_eval depth within).sound value (yields depth (Nat.le_refl depth))

/-- A procedure with a generated parameter is yielded with `h` free, and a call of it finds `h` unbound. -/
theorem names_stay_in_scope_generated :
    (Yields (.mk [.define "g" (.lambda ["x"] [.lambda ["y"] [.app (.var "h") [.var "x", .var "y"]]]),
        .app (.var "g") [.lit (.symbol "a")]])
        (.closure ["y__1"] [.app (.var "h") [.lit (.symbol "a"), .var "y__1"]]) ∧
      ∀ name ∈ (Value.closure ["y__1"] [.app (.var "h") [.lit (.symbol "a"), .var "y__1"]]).freeNames,
        name ∈ ["h", "g"]) ∧
    FailsWith (.mk [.define "g" (.lambda ["x"] [.lambda ["y"] [.app (.var "h") [.var "x", .var "y"]]]),
        .app (.app (.var "g") [.lit (.symbol "a")]) [.bool true]]) (.unboundVariable "h") ∧
      "h" ∈ ["h", "g"] ∧
      ∀ before form, FailsAt (.mk [.define "g" (.lambda ["x"]
          [.lambda ["y"] [.app (.var "h") [.var "x", .var "y"]]]),
        .app (.app (.var "g") [.lit (.symbol "a")]) [.bool true]]) before form (.unboundVariable "h") →
          ∀ earlier ∈ before, earlier.target? ≠ some "h" := by
  have yields : Yields (.mk [.define "g" (.lambda ["x"]
        [.lambda ["y"] [.app (.var "h") [.var "x", .var "y"]]]), .app (.var "g") [.lit (.symbol "a")]])
      (.closure ["y__1"] [.app (.var "h") [.lit (.symbol "a"), .var "y__1"]]) :=
    @yields_of_eval _ 3 _ rfl
  have fails : FailsWith (.mk [.define "g" (.lambda ["x"]
        [.lambda ["y"] [.app (.var "h") [.var "x", .var "y"]]]),
        .app (.app (.var "g") [.lit (.symbol "a")]) [.bool true]]) (.unboundVariable "h") :=
    @failsWith_of_eval _ 5 _ rfl
  have plain : ∀ value ∈ [Value.symbol "a"], value.HoldsNoProcedure := List.forall_mem_singleton.2 trivial
  obtain ⟨free, -, earlier⟩ := (names_stay_in_scope.2 _ (by exact plain)).1 "h" fails
  exact ⟨⟨yields, (names_stay_in_scope.2 _ (by exact plain)).2 _ yields⟩, fails, free, earlier⟩

end Program

end MiniScheme
