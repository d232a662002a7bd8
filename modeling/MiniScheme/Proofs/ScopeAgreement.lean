import MiniScheme.Proofs.Literals
import MiniScheme.Proofs.Unloading

/-! # Agreement of evaluation and addressing

Evaluation, which renames and substitutes at every call, and the machine, which follows addresses, make
the same scoping decisions. Both agree with the evaluation of nameless trees at every depth: evaluation
by its nameless view, and the machine when it is unloaded. -/

namespace MiniScheme

namespace Machine

/-! ## Simulation -/

/-- A run of the machine and a run of nameless trees that it stands for. Results of the machine satisfy an
invariant. -/
structure Simulates {α β : Type} (invariant : α → Prop) (unload : α → β) (run : RunOver Closure α)
    (run' : Term.Run β) : Prop where
  /-- The one run stands for the other. -/
  unloaded : RunOver.map Closure.unload unload run = run'
  /-- The result satisfies the invariant. -/
  sound : ∀ result, run = .ok result → invariant result

/-- Simulation with sound values as results. -/
abbrev SimulatesDatum : Run → Term.Run (ValueOver Abstraction) → Prop :=
  Simulates ValueOver.Sound ValueOver.unload

/-- Definitions in force, unloaded. -/
def unloadGlobals (globals : Globals) : Term.Definitions :=
  globals.map fun definition => (definition.1, definition.2.unload)

variable {α β γ δ : Type}

/-- A sound value simulates what it stands for. -/
theorem simulates_ok {value : Datum} {value' : ValueOver Abstraction} (sound : value.Sound)
    (same : value.unload = value') : SimulatesDatum (.ok value) (.ok value') := by
  refine ⟨congrArg Except.ok same, fun result reached => ?_⟩
  obtain rfl := Except.ok.inj reached
  exact sound

/-- A halt simulates what it stands for. -/
theorem simulates_error {invariant : α → Prop} {unload : α → β} {halt : Halt Closure}
    {halt' : Halt Abstraction} (same : halt.map Closure.unload = halt') :
    Simulates invariant unload (.error halt) (.error halt') :=
  ⟨congrArg Except.error same, nofun⟩

/-- Simulations one after the other. -/
theorem Simulates.bind {invariant : α → Prop} {unload : α → β} {invariant' : γ → Prop}
    {unload' : γ → δ} {run : RunOver Closure α} {run' : Term.Run β} {next : α → RunOver Closure γ}
    {next' : β → Term.Run δ} (now : Simulates invariant unload run run')
    (later : ∀ result, invariant result →
      Simulates invariant' unload' (next result) (next' (unload result))) :
    Simulates invariant' unload' (run >>= next) (run' >>= next') := by
  -- If the machine halts in the first run, so does the other run, for the same reason.
  obtain ⟨rfl, sound⟩ := now
  cases run with
  | ok result => exact later result (sound result rfl)
  | error halt => exact ⟨rfl, nofun⟩

/-- Simulation of the evaluation of a list. -/
theorem simulates_mapM {item : γ → δ} {evaluate : γ → Run}
    {evaluate' : δ → Term.Run (ValueOver Abstraction)} {items : List γ}
    (each : ∀ entry ∈ items, SimulatesDatum (evaluate entry) (evaluate' (item entry))) :
    Simulates (fun values => ∀ value ∈ values, value.Sound) (List.map ValueOver.unload)
      (items.mapM evaluate) ((items.map item).mapM evaluate') := by
  induction items with
  | nil =>
      refine ⟨rfl, fun result reached => ?_⟩
      obtain rfl := Except.ok.inj reached
      exact List.forall_mem_nil _
  | cons entry entries ih =>
      rw [List.forall_mem_cons] at each
      rw [List.map_cons, List.mapM_cons, List.mapM_cons]
      refine each.1.bind fun value sound => ?_
      refine (ih each.2).bind fun values others => ?_
      refine ⟨rfl, fun result reached => ?_⟩
      obtain rfl := Except.ok.inj reached
      exact List.forall_mem_cons.2 ⟨sound, others⟩

/-- The evaluation of the tree for a value yields the value. -/
theorem eval_toTerm (depth : Nat) (definitions : Term.Definitions) (value : ValueOver Abstraction) :
    Term.eval (depth + 1) definitions value.toTerm = .ok value := by
  cases value with
  | procedure code =>
      cases code
      rfl
  | number | bool | string | symbol | nil | cons | prim => rfl

/-- The tree for a value is no definition. -/
theorem toTerm_ne_define (value : ValueOver Abstraction) (name : String) (tree : Term) :
    value.toTerm ≠ .define name tree := by
  cases value <;> nofun

variable {globals : Globals} {frames : Frames}

/-- A free name refers to the same in the machine and in a nameless tree. -/
theorem simulates_readFree (sound : ∀ definition ∈ globals, definition.2.Sound) (depth : Nat)
    (name : String) :
    SimulatesDatum (readFree globals name)
      (Term.eval (depth + 1) (unloadGlobals globals) (.ofFreeName name)) := by
  rw [readFree, Term.ofFreeName]
  cases Primitive.ofKeyword? name with
  | some op => exact simulates_ok (.prim op) rfl
  | none =>
      have unloaded := lookup_map ValueOver.unload globals name
      simp only [Term.eval, Term.lookup, unloadGlobals, unloaded]
      cases found : globals.lookup name with
      | some value =>
          exact simulates_ok (sound (name, value) (mem_of_lookup_eq_some found)) rfl
      | none => exact simulates_error rfl

/-- An address refers to the entry of a frame that is filled in. -/
theorem simulates_readBound (sound : ∀ frame ∈ frames, ∀ value ∈ frame, value.Sound) (depth : Nat)
    {definitions : Term.Definitions} {address : Address}
    (inScope : (Pointer.bound address.depth address.position).InScope (frames.map List.length)) :
    SimulatesDatum (readBound frames address)
      (Term.eval (depth + 1) definitions ((Reference.bound address).nameless.fill
        (ValueOver.unloadFrames frames) 0)) := by
  obtain ⟨arity, found, less⟩ := inScope
  rw [List.getElem?_map] at found
  obtain ⟨frame, here, rfl⟩ := Option.map_eq_some_iff.1 found
  have entry : frames[address.depth]?.bind (·[address.position]?) = some frame[address.position] := by
    rw [here, Option.bind_some, List.getElem?_eq_getElem less]
  -- What is filled in at the reference is the tree for the entry.
  have filled : (Reference.bound address).nameless.fill (ValueOver.unloadFrames frames) 0 =
      frame[address.position].unload.toTerm := by
    rw [Reference.nameless, Nameless.fill, Nameless.mapRefs, Pointer.fill,
      if_neg (Nat.not_lt_zero _), Nat.sub_zero, ValueOver.unloadFrames_eq_map, List.getElem?_map, here]
    simp [less]
  rw [readBound, entry, filled, eval_toTerm]
  exact simulates_ok (sound frame (List.mem_of_getElem? here) _ (List.getElem_mem less)) rfl

/-- A free name stays as it is when contours are filled in. -/
theorem fill_ofFreeName (name : String) (trees : List (List Term)) (depth : Nat) :
    (Term.ofFreeName name).fill trees depth = Term.ofFreeName name := by
  rw [Term.ofFreeName]
  cases Primitive.ofKeyword? name <;> rfl

/-- No tree of the machine is a definition. -/
theorem fill_ne_define (frames : Frames) (tree : LexExpr) (name : String) (value : Term) :
    tree.nameless.fill (ValueOver.unloadFrames frames) 0 ≠ .define name value := by
  have freeName (free : String) :
      (Term.ofFreeName free).fill (ValueOver.unloadFrames frames) 0 ≠ .define name value := by
    rw [fill_ofFreeName, Term.ofFreeName]
    cases Primitive.ofKeyword? free with
    | none | some op =>
        intro same
        cases same
  cases tree with
  | var free => exact freeName free
  | ref reference =>
      cases reference with
      | free free => exact freeName free
      | bound address =>
          rw [LexExpr.nameless, Reference.nameless, Nameless.fill, Nameless.mapRefs, Pointer.fill,
            if_neg (Nat.not_lt_zero _)]
          cases found : (ValueOver.unloadFrames frames)[address.depth - 0]?.bind
              (·[address.position]?) with
          | none =>
              intro same
              cases same
          | some tree =>
              obtain ⟨trees, inFrames, inFrame⟩ := Nameless.exists_mem_of_bind_eq_some found
              rw [ValueOver.unloadFrames_eq_map] at inFrames
              obtain ⟨frame, -, rfl⟩ := List.mem_map.1 inFrames
              rw [ValueOver.unloadFrame_eq_map] at inFrame
              obtain ⟨entry, -, rfl⟩ := List.mem_map.1 inFrame
              exact toTerm_ne_define entry.unload name value
  | num | bool | str | lit | cond | lambda | app =>
      intro same
      cases same

/-- A sequence that starts with no definition starts with the evaluation of its first tree. -/
theorem sequence_of_ne_define (evaluate : Term.Definitions → Term → Term.Run (ValueOver Abstraction))
    (definitions : Term.Definitions) {form : Term} (plain : ∀ name value, form ≠ .define name value) :
    Term.sequence evaluate definitions [form] = evaluate definitions form ∧
      ∀ next rest, Term.sequence evaluate definitions (form :: next :: rest) =
        evaluate definitions form >>= fun _ => Term.sequence evaluate definitions (next :: rest) := by
  cases form with
  | define name value => exact absurd rfl (plain name value)
  | _ => exact ⟨rfl, fun _ _ => rfl⟩

/-- Simulation of a sequence. -/
theorem simulates_sequence {evaluate : Globals → LexExpr → Run}
    {evaluate' : Term.Definitions → Term → Term.Run (ValueOver Abstraction)}
    (agree : ∀ globals tree, (∀ definition ∈ globals, definition.2.Sound) →
      tree.nameless.Scoped (frames.map List.length) →
        SimulatesDatum (evaluate globals tree) (evaluate' (unloadGlobals globals)
          (tree.nameless.fill (ValueOver.unloadFrames frames) 0)))
    (sound : ∀ definition ∈ globals, definition.2.Sound) {forms : List AddressedForm}
    (inScope : ∀ form ∈ forms, form.nameless.Scoped (frames.map List.length)) :
    SimulatesDatum (sequence evaluate globals forms)
      (Term.sequence evaluate' (unloadGlobals globals)
        (forms.map fun form => form.nameless.fill (ValueOver.unloadFrames frames) 0)) := by
  induction forms generalizing globals with
  | nil => exact simulates_error rfl
  | cons form forms ih =>
      rw [List.forall_mem_cons] at inScope
      cases form with
      | define name value =>
          refine (agree globals value sound inScope.1).bind fun result isSound => ?_
          -- The definition is in force for the forms after it, and its value is sound.
          exact ih (List.forall_mem_cons.2 ⟨isSound, sound⟩) inScope.2
      | expr tree =>
          obtain ⟨last, first⟩ := sequence_of_ne_define evaluate' (unloadGlobals globals)
            (fill_ne_define frames tree)
          cases forms with
          | nil => exact last ▸ agree globals tree sound inScope.1
          | cons next rest =>
              rw [List.map_cons, List.map_cons]
              refine first _ _ ▸ ?_
              exact (agree globals tree sound inScope.1).bind fun _ _ => ih sound inScope.2

/-- The forms that remain of a procedure are its body with the arguments as one more frame. -/
theorem instantiate_unload (entries : ∀ frame ∈ frames, ∀ value ∈ frame, value.Sound) {arity : Nat}
    (body : List LexExpr) (arguments : List Datum) :
    Term.instantiate
        { arity, body := body.map fun tree => tree.nameless.fill (ValueOver.unloadFrames frames) 1 }
        (arguments.map ValueOver.unload) =
      body.map fun tree => tree.nameless.fill (ValueOver.unloadFrames (arguments :: frames)) 0 := by
  have closed : ∀ frame ∈ ValueOver.unloadFrames frames, ∀ tree ∈ frame, tree.Scoped [] := by
    simp only [ValueOver.unloadFrames_eq_map, ValueOver.unloadFrame_eq_map, List.forall_mem_map]
    intro frame inFrames value inFrame
    exact (entries frame inFrames value inFrame).closed
  have innermost : (arguments.map ValueOver.unload).map ValueOver.toTerm =
      ValueOver.unloadFrame arguments := by
    rw [ValueOver.unloadFrame_eq_map, List.map_map]
    rfl
  -- The outer frames are filled in already; the arguments are the innermost frame.
  rw [Term.instantiate, List.map_map, innermost, ValueOver.unloadFrames]
  exact List.map_congr_left fun tree _ => Nameless.fill_fill closed _ 0 tree.nameless

/-- Simulation of an application: the frame that the machine pushes is what the application fills in. -/
theorem simulates_applyWith {run : Frames → List LexExpr → Run}
    {run' : List Term → Term.Run (ValueOver Abstraction)}
    (agree : ∀ inner body, (∀ frame ∈ inner, ∀ value ∈ frame, value.Sound) →
      (∀ tree ∈ body, tree.nameless.Scoped (inner.map List.length)) →
        SimulatesDatum (run inner body)
          (run' (body.map fun tree => tree.nameless.fill (ValueOver.unloadFrames inner) 0)))
    {procedure : Datum} (sound : procedure.Sound) {arguments : List Datum}
    (allSound : ∀ argument ∈ arguments, argument.Sound) :
    SimulatesDatum (applyWith run procedure arguments)
      (Term.applyWith run' procedure.unload (arguments.map ValueOver.unload)) := by
  cases sound with
  | prim op =>
      have unloads : ValueOver.unload = ValueOver.map Closure.unload := funext ValueOver.unload_eq_map
      refine ⟨?_, fun result => Primitive.sound_applyOver allSound⟩
      rw [unloads]
      exact (Primitive.applyOver_map Closure.unload op arguments).symm
  | @procedure params body frames entries inScope =>
      have callee : (ValueOver.procedure { params, body, frames }).unload =
          .procedure (Closure.unload { params, body, frames }) := by
        rw [ValueOver.unload]
      rw [applyWith, callee, Term.applyWith, Closure.unload, List.length_map]
      by_cases sameNumber : params.length = arguments.length
      · rw [if_pos sameNumber, if_pos sameNumber, instantiate_unload entries]
        refine agree (arguments :: frames) body (List.forall_mem_cons.2 ⟨allSound, entries⟩) ?_
        rw [List.map_cons, ← sameNumber]
        exact inScope
      · rw [if_neg sameNumber, if_neg sameNumber]
        refine simulates_error ?_
        rw [Halt.map, ← ValueOver.unload_eq_map, callee, Closure.unload]
  | number | bool | string | symbol | nil | cons =>
      exact simulates_error (congrArg Halt.notProcedure (ValueOver.unload_eq_map _).symm)

/-- Evaluation in the machine simulates the evaluation of nameless trees at every depth. -/
theorem simulates_eval (depth : Nat) (entries : ∀ frame ∈ frames, ∀ value ∈ frame, value.Sound)
    (sound : ∀ definition ∈ globals, definition.2.Sound) {tree : LexExpr}
    (inScope : tree.nameless.Scoped (frames.map List.length)) :
    SimulatesDatum (eval depth frames globals tree)
      (Term.eval depth (unloadGlobals globals)
        (tree.nameless.fill (ValueOver.unloadFrames frames) 0)) := by
  -- By induction on the depth, for all frames: an application goes on in the frames of a procedure.
  induction depth generalizing frames globals tree with
  | zero => exact simulates_error rfl
  | succ depth ih =>
      cases tree with
      | num value => exact simulates_ok (.number value) rfl
      | bool value => exact simulates_ok (.bool value) rfl
      | str value => exact simulates_ok (.string value) rfl
      | lit value =>
          refine simulates_ok (ValueOver.sound_ofData value) ?_
          rw [ValueOver.unload_eq_map, ValueOver.map_ofData]
      | var name =>
          rw [LexExpr.nameless, fill_ofFreeName]
          exact simulates_readFree sound depth name
      | ref reference =>
          cases reference with
          | free name =>
              rw [LexExpr.nameless, Reference.nameless, fill_ofFreeName]
              exact simulates_readFree sound depth name
          | bound address => exact simulates_readBound entries depth inScope
      | cond test consequent alternative =>
          obtain ⟨inTest, inConsequent, inAlternative⟩ := inScope
          refine (ih entries sound inTest).bind fun value _ => ?_
          have same : value.unload.isTrue = value.isTrue := by
            rw [ValueOver.unload_eq_map, ValueOver.isTrue_map]
          rw [same]
          cases value.isTrue with
          | true => exact ih entries sound inConsequent
          | false => exact ih entries sound inAlternative
      | lambda params body =>
          rw [LexExpr.nameless, LexExpr.namelessAll_eq_map, Nameless.Scoped, Nameless.scopedAll_iff,
            List.forall_mem_map] at inScope
          rw [LexExpr.nameless, LexExpr.namelessAll_eq_map, Nameless.fill, Nameless.mapRefs,
            Nameless.mapRefsAll_eq_map, List.map_map]
          refine simulates_ok (.procedure entries inScope) ?_
          rw [ValueOver.unload, Closure.unload]
          rfl
      | app operator operands =>
          rw [LexExpr.nameless, LexExpr.namelessAll_eq_map, Nameless.Scoped, Nameless.scopedAll_iff,
            List.forall_mem_map] at inScope
          rw [LexExpr.nameless, LexExpr.namelessAll_eq_map, Nameless.fill, Nameless.mapRefs,
            Nameless.mapRefsAll_eq_map, List.map_map]
          refine (ih entries sound inScope.1).bind fun procedure isSound => ?_
          refine (simulates_mapM fun operand member =>
            ih entries sound (inScope.2 operand member)).bind fun arguments allSound => ?_
          refine simulates_applyWith (fun inner body areSound bodyInScope => ?_) isSound allSound
          -- The body is run in the frames of the procedure, with the definitions of the call.
          have forms := @simulates_sequence globals inner (eval depth inner) (Term.eval depth)
            (fun globals tree sound inScope => ih areSound sound inScope) sound
            (body.map .expr) (List.forall_mem_map.2 bodyInScope)
          rw [List.map_map] at forms
          exact forms

/-- Running addressed forms simulates the evaluation of a program with the same nameless view. -/
theorem simulates_runForms {program : Program} {forms : List AddressedForm}
    (views : forms.map AddressedForm.nameless = program.view) (depth : Nat) :
    SimulatesDatum (runForms depth forms) (program.eval depth).view := by
  have closed : ∀ tree ∈ forms.map AddressedForm.nameless, tree.Scoped [] := by
    rw [views, Program.view, List.forall_mem_map]
    intro form _
    exact Expr.scoped_nameless Value.view [] form
  have unchanged : forms.map (fun form => form.nameless.fill (ValueOver.unloadFrames []) 0) =
      program.view := by
    rw [← views]
    refine List.map_congr_left fun form member => ?_
    have isClosed := closed form.nameless (List.mem_map_of_mem member)
    exact isClosed.fill_eq_self _ 0
  rw [Program.view_eval, ← unchanged]
  exact @simulates_sequence [] [] (eval depth []) (Term.eval depth)
    (fun globals tree sound inScope => simulates_eval depth (List.forall_mem_nil _) sound inScope)
    (List.forall_mem_nil _) forms (List.forall_mem_map.1 closed)

/-! ## Agreement -/

/-- Agreement of an error with a halt of the machine: the same kind of error with the same data, and values
that stand for the same. -/
inductive Matches : EvalError → Halt Closure → Prop
  /-- No definition for the same name. -/
  | unboundVariable (name : String) : Matches (.unboundVariable name) (.unboundVariable name)
  /-- Applications of values that stand for the same. -/
  | notProcedure {value : Value} {datum : Datum} (same : value.view = datum.unload) :
      Matches (.notProcedure value) (.notProcedure datum)
  /-- Applications of such values to as many arguments, where as many are expected. -/
  | arityMismatch {callee : Value} {datum : Datum} (same : callee.view = datum.unload)
      (expected : Arity) (found : Nat) :
      Matches (.arityMismatch callee expected found) (.arityMismatch datum expected found)
  /-- The same refusal by the same operator. -/
  | operand (op : Primitive) (fault : OperandFault) : Matches (.operand op fault) (.operand op fault)
  /-- The same reason why an expression cannot be evaluated. -/
  | malformed (fault : EvalFault) : Matches (.malformed fault) (.malformed fault)
  /-- Nothing left to evaluate. -/
  | emptySequence : Matches .emptySequence .emptySequence

/-- An error matches a halt that stands for the same. -/
theorem matches_of_map_eq {error : EvalError} {halt : Halt Closure}
    (same : halt.map Closure.unload = .ofError Value.view error) : Matches error halt := by
  cases error with
  | notProcedure value =>
      cases halt with
      | notProcedure datum =>
          refine .notProcedure ?_
          rw [ValueOver.unload_eq_map]
          exact (Halt.notProcedure.inj same).symm
      | _ => cases same
  | arityMismatch callee expected found =>
      cases halt with
      | arityMismatch datum expected' found' =>
          obtain ⟨views, rfl, rfl⟩ := Halt.arityMismatch.inj same
          refine .arityMismatch ?_ _ _
          rw [ValueOver.unload_eq_map, views]
      | _ => cases same
  | unboundVariable | operand | malformed | emptySequence =>
      cases halt <;> cases same
      all_goals constructor

/-- An error matches no cut-off. -/
theorem Matches.ne_cutOff {error : EvalError} {halt : Halt Closure} (same : Matches error halt) :
    halt ≠ .cutOff := by
  rintro rfl
  cases same

end Machine

/-- A value of the machine that stands for a value without procedures is this value. -/
theorem Value.HoldsNoProcedure.eq_ofData {value : Value} (plain : value.HoldsNoProcedure)
    {datum : Machine.Datum} (same : value.view = datum.unload) : datum = .ofData value := by
  induction value generalizing datum with
  | cons car cdr ihCar ihCdr =>
      rw [view] at same
      cases datum with
      | cons first second =>
          rw [ValueOver.unload] at same
          obtain ⟨left, right⟩ := ValueOver.cons.inj same
          rw [ihCar plain.1 left, ihCdr plain.2 right, ValueOver.ofData]
      | _ => simp [ValueOver.unload] at same
  | closure params body => exact plain.elim
  | number | bool | string | symbol | nil | prim =>
      cases datum <;> simp_all [view, ValueOver.unload, ValueOver.ofData]

namespace Program

/-- A program and its addressed forms agree when evaluation and the machine both diverge, or both yield
values, or both fail. The values are equal if they hold no procedure; procedures are equal up to declared
names once the frames of the machine are filled into their bodies. -/
inductive AgreesWithMachine (program : Program) (forms : List AddressedForm) : Prop
  /-- Both diverge. -/
  | diverge (left : program.Diverges) (right : Machine.Diverges forms)
  /-- Both yield values that stand for the same. -/
  | yield (value : Value) (datum : Machine.Datum) (left : program.Yields value)
      (right : Machine.Yields forms datum) (same : value.view = datum.unload)
      (plain : value.HoldsNoProcedure → datum = .ofData value)
  /-- Both fail, and with the same data. -/
  | fail (error : EvalError) (halt : Halt Closure) (left : program.FailsWith error)
      (right : Machine.FailsWith forms halt) (same : Machine.Matches error halt)

/-- A program agrees with forms of the same nameless view. -/
theorem agreesWithMachine_of_view_eq {program : Program} {forms : List AddressedForm}
    (views : forms.map AddressedForm.nameless = program.view) : program.AgreesWithMachine forms := by
  have unloaded (depth : Nat) := (Machine.simulates_runForms views depth).unloaded
  -- At each depth the run of the machine stands for the evaluation, so it ends in the same way.
  rcases program.diverges_or_settles with diverges | ⟨depth, value, reached⟩ | ⟨depth, error, reached⟩
  · refine .diverge diverges fun depth => ?_
    have cut := unloaded depth
    rw [diverges] at cut
    cases run : Machine.runForms depth forms with
    | ok datum =>
        rw [run] at cut
        cases cut
    | error halt =>
        rw [run] at cut
        cases halt <;> cases cut
        rfl
  · have same := unloaded depth
    rw [reached] at same
    cases run : Machine.runForms depth forms with
    | error halt =>
        rw [run] at same
        cases same
    | ok datum =>
        rw [run] at same
        have equal : value.view = datum.unload := (Except.ok.inj same).symm
        exact .yield value datum (yields_of_eval reached) (Machine.yields_of_runForms run) equal
          fun plain => plain.eq_ofData equal
  · have same := unloaded depth
    rw [reached] at same
    cases run : Machine.runForms depth forms with
    | ok datum =>
        rw [run] at same
        cases same
    | error halt =>
        rw [run] at same
        have agrees := Machine.matches_of_map_eq (Except.error.inj same)
        exact .fail error halt (failsWith_of_eval reached)
          (Machine.failsWith_of_runForms agrees.ne_cutOff run) agrees

/-- Evaluation and addressing make the same scoping decisions: every program that is parsed is addressed,
and its evaluation agrees with the machine that follows the addresses. -/
theorem exists_address_agreesWithMachine {source : String} {program : Program}
    (parsed : Program.parse source = .ok program) :
    ∃ forms, program.address = .ok forms ∧ program.eliminateLets.AgreesWithMachine forms := by
  obtain ⟨forms, addressed, views⟩ := (legible_of_parse parsed).exists_addressed
  exact ⟨forms, addressed, agreesWithMachine_of_view_eq views⟩

/-- Local bindings around a procedure: the value is a procedure, with one frame in the machine and without
free names in evaluation. -/
theorem exists_address_agreesWithMachine_letIn :
    Program.parse "(let ((x #t)) (lambda (y) x))" =
        .ok { forms := [.letIn [("x", .bool true)] [.lambda ["y"] [.var "x"]]] } ∧
      ∃ forms, address { forms := [.letIn [("x", .bool true)] [.lambda ["y"] [.var "x"]]] } = .ok forms ∧
        (eliminateLets { forms := [.letIn [("x", .bool true)] [.lambda ["y"] [.var "x"]]] }
          ).AgreesWithMachine forms := by
  have tokens : Token.ofText "(let ((x #t)) (lambda (y) x))" =
      [⟨.opening, 0, 1⟩, ⟨.atom "let", 1, 4⟩, ⟨.opening, 5, 6⟩, ⟨.opening, 6, 7⟩, ⟨.atom "x", 7, 8⟩,
        ⟨.atom "#t", 9, 11⟩, ⟨.closing, 11, 12⟩, ⟨.closing, 12, 13⟩, ⟨.opening, 14, 15⟩,
        ⟨.atom "lambda", 15, 21⟩, ⟨.opening, 22, 23⟩, ⟨.atom "y", 23, 24⟩, ⟨.closing, 24, 25⟩,
        ⟨.atom "x", 26, 27⟩, ⟨.closing, 27, 28⟩, ⟨.closing, 28, 29⟩] := by
    decide +kernel
  have trees : SExpr.parse "(let ((x #t)) (lambda (y) x))" =
      .ok [.list [.atom "let", .list [.list [.atom "x", .atom "#t"]],
        .list [.atom "lambda", .list [.atom "y"], .atom "x"]]] := by
    rw [SExpr.parse, SExpr.ofText_of_le (by decide +kernel), tokens]
    rfl
  have parsed : Program.parse "(let ((x #t)) (lambda (y) x))" =
      .ok { forms := [.letIn [("x", .bool true)] [.lambda ["y"] [.var "x"]]] } := by
    rw [Program.parse, trees]
    rfl
  exact ⟨parsed, exists_address_agreesWithMachine parsed⟩

end Program

end MiniScheme
