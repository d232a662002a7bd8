import MiniScheme.Primitive.Apply

/-! # Values over a type of procedures

What a procedure is differs from one account of evaluation to the next: an expression that is closed by
substitution, a nameless tree, or code with an environment. `ValueOver` has the values for each of them.
Primitive operators treat procedures as opaque: four of them hand their arguments on, and the others see
no more of a procedure than that it is one. So `Primitive.applyOver` can ask `Primitive.apply` about the
outlines of its arguments, and it is natural in the type of procedures. -/

namespace MiniScheme

/-- A value whose procedures are of some type. -/
inductive ValueOver (κ : Type) : Type where
  /-- A number. -/
  | number (value : Float)
  /-- A truth value. -/
  | bool (value : Bool)
  /-- A string. -/
  | string (value : String)
  /-- A symbol. -/
  | symbol (name : String)
  /-- The empty list. -/
  | nil
  /-- A pair. -/
  | cons (car cdr : ValueOver κ)
  /-- A primitive operator. -/
  | prim (op : Primitive)
  /-- A procedure. -/
  | procedure (code : κ)

/-- Why an evaluation with such values stops without a result. -/
inductive Halt (κ : Type) : Type where
  /-- A reference to a name without a definition. -/
  | unboundVariable (name : String)
  /-- An application of a value that is no procedure. -/
  | notProcedure (value : ValueOver κ)
  /-- An application of a procedure to a wrong number of arguments. -/
  | arityMismatch (callee : ValueOver κ) (expected : Arity) (found : Nat)
  /-- An argument that a primitive operator refuses. -/
  | operand (op : Primitive) (fault : OperandFault)
  /-- An expression that cannot be evaluated where it stands. -/
  | malformed (fault : EvalFault)
  /-- A sequence with nothing left to evaluate. -/
  | emptySequence
  /-- The evaluation goes deeper than allowed. -/
  | cutOff

/-- What comes of an evaluation with such values. -/
abbrev RunOver (κ α : Type) : Type := Except (Halt κ) α

variable {κ μ : Type}

namespace ValueOver

/-- Whether a conditional takes its first branch on the value. -/
def isTrue : ValueOver κ → Bool
  | .bool value => value
  | _ => true

/-- The proper list of the given values. -/
def ofList (items : List (ValueOver κ)) : ValueOver κ :=
  items.foldr .cons .nil

/-- Changes the procedures of a value. -/
def map (change : κ → μ) : ValueOver κ → ValueOver μ
  | .number value => .number value
  | .bool value => .bool value
  | .string value => .string value
  | .symbol name => .symbol name
  | .nil => .nil
  | .cons car cdr => .cons (car.map change) (cdr.map change)
  | .prim op => .prim op
  | .procedure code => .procedure (change code)

/-- The value with an empty procedure in place of each procedure. -/
def outline : ValueOver κ → Value
  | .number value => .number value
  | .bool value => .bool value
  | .string value => .string value
  | .symbol name => .symbol name
  | .nil => .nil
  | .cons car cdr => .cons car.outline cdr.outline
  | .prim op => .prim op
  | .procedure _ => .closure [] []

/-- A value without procedures. There is nothing to put in place of a procedure, and nobody asks. -/
def ofData : Value → ValueOver κ
  | .number value => .number value
  | .bool value => .bool value
  | .string value => .string value
  | .symbol name => .symbol name
  | .nil => .nil
  | .cons car cdr => .cons (ofData car) (ofData cdr)
  | .prim op => .prim op
  | .closure _ _ => .nil

@[simp] theorem isTrue_map (change : κ → μ) (value : ValueOver κ) :
    (value.map change).isTrue = value.isTrue := by
  cases value <;> rfl

@[simp] theorem outline_map (change : κ → μ) (value : ValueOver κ) :
    (value.map change).outline = value.outline := by
  induction value with
  | cons car cdr ihCar ihCdr => simp only [map, outline, ihCar, ihCdr]
  | number | bool | string | symbol | nil | prim | procedure => rfl

@[simp] theorem map_ofData (change : κ → μ) (value : Value) :
    (ofData value : ValueOver κ).map change = ofData value := by
  induction value with
  | cons car cdr ihCar ihCdr => simp only [ofData, map, ihCar, ihCdr]
  | number | bool | string | symbol | nil | prim | closure => rfl

@[simp] theorem map_ofList (change : κ → μ) (items : List (ValueOver κ)) :
    (ofList items).map change = ofList (items.map (map change)) := by
  induction items with
  | nil => rfl
  | cons item items ih =>
      rw [ofList, ofList] at ih
      rw [ofList, List.foldr_cons, map, ih, ofList, List.map_cons, List.foldr_cons]

end ValueOver

/-- The value with its procedures made from their parameters and bodies. -/
def Value.withProcedures (procedure : List String → List Expr → κ) : Value → ValueOver κ
  | .number value => .number value
  | .bool value => .bool value
  | .string value => .string value
  | .symbol name => .symbol name
  | .nil => .nil
  | .cons car cdr => .cons (car.withProcedures procedure) (cdr.withProcedures procedure)
  | .prim op => .prim op
  | .closure params body => .procedure (procedure params body)

namespace Halt

/-- Changes the procedures of the values that a halt names. -/
def map (change : κ → μ) : Halt κ → Halt μ
  | .unboundVariable name => .unboundVariable name
  | .notProcedure value => .notProcedure (value.map change)
  | .arityMismatch callee expected found => .arityMismatch (callee.map change) expected found
  | .operand op fault => .operand op fault
  | .malformed fault => .malformed fault
  | .emptySequence => .emptySequence
  | .cutOff => .cutOff

/-- An error as a halt, with its values converted. -/
def ofError (convert : Value → ValueOver κ) : EvalError → Halt κ
  | .unboundVariable name => .unboundVariable name
  | .notProcedure value => .notProcedure (convert value)
  | .arityMismatch callee expected found => .arityMismatch (convert callee) expected found
  | .operand op fault => .operand op fault
  | .malformed fault => .malformed fault
  | .emptySequence => .emptySequence

end Halt

namespace RunOver

variable {α β : Type}

/-- Changes the result of a run and the procedures that its halt names. -/
def map (change : κ → μ) (convert : α → β) : RunOver κ α → RunOver μ β
  | .ok result => .ok (convert result)
  | .error halt => .error (halt.map change)

/-- The end of a computation on values, with its values converted. -/
def ofExcept (convert : Value → ValueOver κ) : Except EvalError Value → RunOver κ (ValueOver κ)
  | .ok value => .ok (convert value)
  | .error error => .error (.ofError convert error)

end RunOver

namespace Primitive

/-- The argument, or what is made of the arguments, that an operator hands on. -/
def handedOn (op : Primitive) (arguments : List (ValueOver κ)) : Option (ValueOver κ) :=
  match op, arguments with
  | .cons, [first, second] => some (.cons first second)
  | .car, [.cons first _] => some first
  | .cdr, [.cons _ second] => some second
  | .list, items => some (.ofList items)
  | _, _ => none

/-- Applies a primitive operator to values over a type of procedures. -/
def applyOver (op : Primitive) (arguments : List (ValueOver κ)) : RunOver κ (ValueOver κ) :=
  match op.handedOn arguments with
  | some value => .ok value
  | none => .ofExcept .ofData (op.apply (arguments.map ValueOver.outline))

/-! ## Changing procedures -/

/-- What an operator hands on does not depend on what procedures are. -/
theorem handedOn_map (change : κ → μ) (op : Primitive) (arguments : List (ValueOver κ)) :
    op.handedOn (arguments.map (ValueOver.map change)) =
      (op.handedOn arguments).map (ValueOver.map change) := by
  cases op with
  | list => exact congrArg some (ValueOver.map_ofList change arguments).symm
  | cons =>
      match arguments with
      | [] | [_] | [_, _] | _ :: _ :: _ :: _ => rfl
  | car | cdr =>
      match arguments with
      | [] => rfl
      | [argument] => cases argument <;> rfl
      | argument :: _ :: _ => cases argument <;> rfl
  | _ => rfl

/-- Changing the procedures of the arguments changes those of the result. -/
theorem applyOver_map (change : κ → μ) (op : Primitive) (arguments : List (ValueOver κ)) :
    op.applyOver (arguments.map (ValueOver.map change)) =
      (op.applyOver arguments).map change (ValueOver.map change) := by
  rw [applyOver, applyOver, handedOn_map]
  cases op.handedOn arguments with
  | some value => rfl
  | none =>
      -- Nothing is handed on, so the operator sees outlines, and these are the same.
      simp only [Option.map_none, List.map_map, Function.comp_def, ValueOver.outline_map]
      cases op.apply (arguments.map ValueOver.outline) with
      | ok value => simp [RunOver.ofExcept, RunOver.map]
      | error error =>
          cases error <;> simp [RunOver.ofExcept, RunOver.map, Halt.ofError, Halt.map]

/-! ## Agreement with the operators on values -/

/-- The result of an operator that hands nothing on: a number, a truth value, or an error that names the
operator. -/
inductive Atomic (op : Primitive) : Except EvalError Value → Prop
  /-- A number. -/
  | number (value : Float) : Atomic op (.ok (.number value))
  /-- A truth value. -/
  | bool (value : Bool) : Atomic op (.ok (.bool value))
  /-- A wrong number of arguments. -/
  | arity (expected : Arity) (found : Nat) : Atomic op (.error (op.arityError expected found))
  /-- An argument that is refused. -/
  | operand (fault : OperandFault) : Atomic op (.error (.operand op fault))

variable {procedure : List String → List Expr → κ} {op : Primitive}

/-- An atomic result is the same over any type of procedures. -/
theorem Atomic.ofExcept_eq {result : Except EvalError Value} (atomic : Atomic op result) :
    RunOver.ofExcept .ofData result = RunOver.ofExcept (Value.withProcedures procedure) result := by
  cases atomic <;> rfl

/-- The values as they look without the bodies of their procedures. -/
abbrev outlines (procedure : List String → List Expr → κ) (arguments : List Value) : List Value :=
  arguments.map fun argument => (argument.withProcedures procedure).outline

/-- Whether an operator sees no more than the outlines of its arguments and has an atomic result. -/
def SeesOutlines (procedure : List String → List Expr → κ) (op : Primitive) (arguments : List Value) :
    Prop :=
  op.apply (outlines procedure arguments) = op.apply arguments ∧ Atomic op (op.apply arguments)

/-- The kind of a value shows in its outline. -/
@[simp] theorem kind_outline_withProcedures (value : Value) :
    (value.withProcedures procedure).outline.kind = value.kind := by
  cases value <;> rfl

/-- Whether a value counts as true shows in its outline. -/
@[simp] theorem isTrue_outline_withProcedures (value : Value) :
    (value.withProcedures procedure).outline.isTrue = value.isTrue := by
  cases value <;> rfl

/-- Whether a value is a list shows in its outline. -/
@[simp] theorem isList_outline_withProcedures (value : Value) :
    (value.withProcedures procedure).outline.isList = value.isList := by
  induction value with
  | cons car cdr ihCar ihCdr => exact ihCdr
  | number | bool | string | symbol | nil | prim | closure => rfl

/-- Equality of atoms shows in the outlines. -/
@[simp] theorem equalAtoms_outline_withProcedures (first second : Value) :
    equalAtoms (first.withProcedures procedure).outline (second.withProcedures procedure).outline =
      equalAtoms first second := by
  cases first <;> cases second <;> rfl

/-- A number among the arguments shows in its outline. -/
@[simp] theorem number_outline_withProcedures (value : Value) :
    op.number (value.withProcedures procedure).outline = op.number value := by
  cases value <;> rfl

/-- A truth value among the arguments shows in its outline. -/
@[simp] theorem boolean_outline_withProcedures (value : Value) :
    op.boolean (value.withProcedures procedure).outline = op.boolean value := by
  cases value <;> rfl

/-- Numbers among the arguments show in the outlines. -/
@[simp] theorem mapM_number_outlines (arguments : List Value) :
    (outlines procedure arguments).mapM op.number = arguments.mapM op.number := by
  induction arguments with
  | nil => rfl
  | cons argument arguments ih =>
      rw [outlines, List.map_cons, List.mapM_cons, List.mapM_cons, number_outline_withProcedures, ih]

/-- A number among the arguments, or the refusal of what is none. -/
theorem number_ok_or_refused (op : Primitive) (value : Value) :
    (∃ number, op.number value = .ok number) ∨
      ∃ fault, op.number value = .error (.operand op fault) := by
  cases value with
  | number value => exact .inl ⟨value, rfl⟩
  | _ => exact .inr ⟨_, rfl⟩

/-- A truth value among the arguments, or the refusal of what is none. -/
theorem boolean_ok_or_refused (op : Primitive) (value : Value) :
    (∃ truth, op.boolean value = .ok truth) ∨
      ∃ fault, op.boolean value = .error (.operand op fault) := by
  cases value with
  | bool value => exact .inl ⟨value, rfl⟩
  | _ => exact .inr ⟨_, rfl⟩

/-- The numbers among arguments, or the refusal of the first that is none. -/
theorem mapM_number_ok_or_refused (op : Primitive) (arguments : List Value) :
    (∃ numbers, arguments.mapM op.number = .ok numbers) ∨
      ∃ fault, arguments.mapM op.number = .error (.operand op fault) := by
  induction arguments with
  | nil => exact .inl ⟨[], rfl⟩
  | cons argument arguments ih =>
      rw [List.mapM_cons]
      rcases op.number_ok_or_refused argument with ⟨number, first⟩ | ⟨fault, first⟩
      · rcases ih with ⟨numbers, others⟩ | ⟨fault, others⟩
        · exact .inl ⟨number :: numbers, by rw [first, others]; rfl⟩
        · exact .inr ⟨fault, by rw [first, others]; rfl⟩
      · exact .inr ⟨fault, by rw [first]; rfl⟩

/-- What is made of the numbers among the arguments shows in the outlines. -/
theorem seesOutlines_of_numbers {combine : List Float → Except EvalError Value}
    (atomic : ∀ numbers, Atomic op (combine numbers))
    (applies : ∀ arguments, op.apply arguments = arguments.mapM op.number >>= combine)
    (arguments : List Value) : SeesOutlines procedure op arguments := by
  rw [SeesOutlines, applies, applies, mapM_number_outlines]
  refine ⟨rfl, ?_⟩
  rcases op.mapM_number_ok_or_refused arguments with ⟨numbers, found⟩ | ⟨fault, found⟩
  · rw [found]
    exact atomic numbers
  · rw [found]
    exact .operand fault

/-- What is made of the only argument shows in its outline. -/
theorem seesOutlines_of_one {combine : Value → Except EvalError Value}
    (applies : ∀ arguments, op.apply arguments = op.one arguments >>= combine)
    (outlined : ∀ argument, combine (argument.withProcedures procedure).outline = combine argument)
    (arguments : List Value) (atomic : ∀ argument, arguments = [argument] → Atomic op (combine argument)) :
    SeesOutlines procedure op arguments := by
  rw [SeesOutlines, applies, applies]
  match arguments with
  | [] => exact ⟨rfl, .arity _ _⟩
  | [argument] => exact ⟨outlined argument, atomic argument rfl⟩
  | _ :: _ :: _ => exact ⟨by simp [one], .arity _ _⟩

/-- What is made of the two arguments shows in their outlines. -/
theorem seesOutlines_of_two {combine : Value × Value → Except EvalError Value}
    (applies : ∀ arguments, op.apply arguments = op.two arguments >>= combine)
    (outlined : ∀ first second,
      combine ((first.withProcedures procedure).outline, (second.withProcedures procedure).outline) =
        combine (first, second))
    (atomic : ∀ first second, Atomic op (combine (first, second)))
    (arguments : List Value) : SeesOutlines procedure op arguments := by
  rw [SeesOutlines, applies, applies]
  match arguments with
  | [] | [_] => exact ⟨rfl, .arity _ _⟩
  | [first, second] => exact ⟨outlined first second, atomic first second⟩
  | _ :: _ :: _ :: _ => exact ⟨by simp [two], .arity _ _⟩

/-- A comparison of two numbers sees no more than outlines. -/
theorem seesOutlines_compareNumbers {relation : Float → Float → Bool}
    (applies : ∀ arguments, op.apply arguments = op.compareNumbers relation arguments)
    (arguments : List Value) : SeesOutlines procedure op arguments := by
  refine seesOutlines_of_two applies (fun first second => ?_) (fun first second => ?_) arguments
  · simp only [number_outline_withProcedures]
  · rcases op.number_ok_or_refused first with ⟨_, left⟩ | ⟨_, left⟩
    · rcases op.number_ok_or_refused second with ⟨_, right⟩ | ⟨_, right⟩
      · simp only [left, right]
        exact .bool _
      · simp only [left, right]
        exact .operand _
    · simp only [left]
      exact .operand _

/-- A combination of two truth values sees no more than outlines. -/
theorem seesOutlines_combineBooleans {combine : Bool → Bool → Bool}
    (applies : ∀ arguments, op.apply arguments = op.combineBooleans combine arguments)
    (arguments : List Value) : SeesOutlines procedure op arguments := by
  refine seesOutlines_of_two applies (fun first second => ?_) (fun first second => ?_) arguments
  · simp only [boolean_outline_withProcedures]
  · rcases op.boolean_ok_or_refused first with ⟨_, left⟩ | ⟨_, left⟩
    · rcases op.boolean_ok_or_refused second with ⟨_, right⟩ | ⟨_, right⟩
      · simp only [left, right]
        exact .bool _
      · simp only [left, right]
        exact .operand _
    · simp only [left]
      exact .operand _

/-- A test that shows in the outline of its argument. -/
theorem seesOutlines_recognise {test : Value → Bool}
    (applies : ∀ arguments, op.apply arguments = op.recognise test arguments)
    (outlined : ∀ argument, test (argument.withProcedures procedure).outline = test argument)
    (arguments : List Value) : SeesOutlines procedure op arguments := by
  refine seesOutlines_of_one applies (fun argument => ?_) arguments fun argument _ => .bool _
  rw [outlined]

/-- A component that is not handed on is asked of something that is no pair. -/
theorem seesOutlines_components {choose : Value × Value → Value}
    (applies : ∀ arguments, op.apply arguments = do return choose (← op.components arguments))
    {arguments : List Value} (noPair : ∀ car cdr, arguments ≠ [.cons car cdr]) :
    SeesOutlines procedure op arguments := by
  rw [SeesOutlines, applies, applies]
  match arguments with
  | [] => exact ⟨rfl, .arity _ _⟩
  | _ :: _ :: _ => exact ⟨by simp [components, one], .arity _ _⟩
  | [argument] =>
      cases argument with
      | cons car cdr => exact absurd rfl (noPair car cdr)
      | _ => exact ⟨rfl, .operand _⟩

/-- Every operator that hands nothing on sees no more than the outlines of its arguments. -/
theorem seesOutlines_of_handedOn_eq_none {arguments : List Value}
    (nothing : op.handedOn (arguments.map (Value.withProcedures procedure)) = none) :
    SeesOutlines procedure op arguments := by
  -- Operators of one kind go together; those that may hand something on are asked about what is left.
  cases op with
  | add | mul => exact seesOutlines_of_numbers (fun _ => .number _) (fun _ => rfl) arguments
  | sub =>
      refine seesOutlines_of_numbers (fun numbers => ?_) (fun _ => rfl) arguments
      match numbers with
      | [] => exact .arity _ _
      | [_] | _ :: _ :: _ => exact .number _
  | div =>
      refine seesOutlines_of_numbers (fun numbers => ?_) (fun _ => rfl) arguments
      match numbers with
      | [] | [_] => exact .arity _ _
      | first :: second :: rest =>
          rw [divide]
          · split
            · exact .operand _
            · exact .number _
          · simp
  | lt | gt | numEq => exact seesOutlines_compareNumbers (fun _ => rfl) arguments
  | and | or => exact seesOutlines_combineBooleans (fun _ => rfl) arguments
  | eq =>
      refine seesOutlines_of_two (fun _ => rfl) (fun first second => ?_)
        (fun _ _ => .bool _) arguments
      simp only [equalAtoms_outline_withProcedures]
  | stringEq =>
      refine seesOutlines_of_two (fun _ => rfl) (fun first second => ?_)
        (fun first second => ?_) arguments
      · cases first <;> cases second <;> rfl
      · cases first <;> cases second <;> first | exact .bool _ | exact .operand _
  | cons =>
      match arguments with
      | [] | [_] => exact ⟨rfl, .arity _ _⟩
      | [first, second] => exact absurd nothing (by simp [handedOn])
      | _ :: _ :: _ :: _ => exact ⟨by simp [apply, two], .arity _ _⟩
  | car | cdr =>
      refine seesOutlines_components (fun _ => rfl) fun car cdr same => ?_
      rw [same] at nothing
      exact absurd nothing (by simp [handedOn, Value.withProcedures])
  | list => exact absurd nothing (by simp [handedOn])
  | not => exact seesOutlines_recognise (fun _ => rfl) (by simp) arguments
  | isList => exact seesOutlines_recognise (fun _ => rfl) isList_outline_withProcedures arguments
  | isPair | isNumber | isBoolean | isSymbol | isString =>
      exact seesOutlines_recognise (fun _ => rfl) (by simp) arguments

/-- A list of values is a list over procedures. -/
theorem withProcedures_ofList (items : List Value) :
    (Value.ofList items).withProcedures procedure =
      .ofList (items.map (Value.withProcedures procedure)) := by
  induction items with
  | nil => rfl
  | cons item items ih => exact congrArg (ValueOver.cons (item.withProcedures procedure)) ih

/-- Whether a value is a pair, a component or a list of arguments. -/
inductive MadeOf (arguments : List Value) : Value → Prop
  /-- The pair of two arguments. -/
  | pair {first second : Value} (two : arguments = [first, second]) :
      MadeOf arguments (.cons first second)
  /-- The first component of the only argument. -/
  | car {first second : Value} (one : arguments = [.cons first second]) : MadeOf arguments first
  /-- The second component of the only argument. -/
  | cdr {first second : Value} (one : arguments = [.cons first second]) : MadeOf arguments second
  /-- The list of all arguments. -/
  | list : MadeOf arguments (.ofList arguments)

/-- An operator hands on the same arguments whether they are values or values over procedures. -/
theorem apply_of_handedOn_eq_some {arguments : List Value} {result : ValueOver κ}
    (handed : op.handedOn (arguments.map (Value.withProcedures procedure)) = some result) :
    ∃ value, op.apply arguments = .ok value ∧ value.withProcedures procedure = result ∧
      MadeOf arguments value := by
  cases op with
  | list =>
      refine ⟨.ofList arguments, rfl, ?_, .list⟩
      rw [← Option.some.inj handed]
      exact withProcedures_ofList arguments
  | cons =>
      match arguments with
      | [first, second] => exact ⟨.cons first second, rfl, Option.some.inj handed, .pair rfl⟩
      | [] | [_] | _ :: _ :: _ :: _ => cases handed
  | car =>
      match arguments with
      | [.cons first second] => exact ⟨first, rfl, Option.some.inj handed, .car rfl⟩
      | [] | [.number _] | [.bool _] | [.string _] | [.symbol _] | [.nil] | [.prim _]
      | [.closure _ _] => cases handed
      | argument :: _ :: _ => cases argument <;> cases handed
  | cdr =>
      match arguments with
      | [.cons first second] => exact ⟨second, rfl, Option.some.inj handed, .cdr rfl⟩
      | [] | [.number _] | [.bool _] | [.string _] | [.symbol _] | [.nil] | [.prim _]
      | [.closure _ _] => cases handed
      | argument :: _ :: _ => cases argument <;> cases handed
  | _ => cases handed

/-- Over any type of procedures, the operators do what they do on values. -/
theorem applyOver_withProcedures (procedure : List String → List Expr → κ) (op : Primitive)
    (arguments : List Value) :
    op.applyOver (arguments.map (Value.withProcedures procedure)) =
      RunOver.ofExcept (Value.withProcedures procedure) (op.apply arguments) := by
  rw [applyOver]
  -- Either the operator hands on an argument, or its result is atomic and shows in the outlines.
  cases handed : op.handedOn (arguments.map (Value.withProcedures procedure)) with
  | some result =>
      obtain ⟨value, applied, same, -⟩ := apply_of_handedOn_eq_some handed
      rw [applied, ← same]
      rfl
  | none =>
      obtain ⟨outlined, atomic⟩ := seesOutlines_of_handedOn_eq_none handed
      rw [outlines] at outlined
      simp only [List.map_map, Function.comp_def, outlined]
      exact atomic.ofExcept_eq

/-! ## What operators make -/

/-- The result of an operator is atomic or made of the arguments. -/
theorem atomic_or_madeOf (op : Primitive) (arguments : List Value) :
    Atomic op (op.apply arguments) ∨
      ∃ value, op.apply arguments = .ok value ∧ MadeOf arguments value := by
  cases handed : op.handedOn (arguments.map (Value.withProcedures fun _ _ => ())) with
  | none => exact .inl (seesOutlines_of_handedOn_eq_none handed).2
  | some outlined =>
      obtain ⟨value, applied, -, made⟩ := apply_of_handedOn_eq_some handed
      exact .inr ⟨value, applied, made⟩

/-- A property that pairs have when both components have it passes from the arguments of an operator to
the result, if all atoms have it. -/
theorem holds_of_apply {op : Primitive} {arguments : List Value} {result : Value} {p : Value → Prop}
    (number : ∀ value, p (.number value)) (bool : ∀ value, p (.bool value)) (nil : p .nil)
    (cons : ∀ car cdr, p (.cons car cdr) ↔ p car ∧ p cdr) (each : ∀ argument ∈ arguments, p argument)
    (applied : op.apply arguments = .ok result) : p result := by
  rcases op.atomic_or_madeOf arguments with atomic | ⟨value, same, made⟩
  · rw [applied] at atomic
    cases atomic with
    | number value => exact number value
    | bool value => exact bool value
  · obtain rfl : result = value := Except.ok.inj (applied.symm.trans same)
    cases made with
    | pair two =>
        rw [two, List.forall_mem_cons, List.forall_mem_singleton] at each
        exact (cons _ _).2 each
    | car one =>
        rw [one, List.forall_mem_singleton] at each
        exact ((cons _ _).1 each).1
    | cdr one =>
        rw [one, List.forall_mem_singleton] at each
        exact ((cons _ _).1 each).2
    | list =>
        clear applied same
        induction arguments with
        | nil => exact nil
        | cons argument arguments ih =>
            rw [List.forall_mem_cons] at each
            exact (cons _ _).2 ⟨each.1, ih each.2⟩

/-- An operator fails for a wrong number of arguments or for an argument that it refuses. -/
theorem error_of_apply {op : Primitive} {arguments : List Value} {error : EvalError}
    (failed : op.apply arguments = .error error) :
    (∃ expected found, error = op.arityError expected found) ∨ ∃ fault, error = .operand op fault := by
  rcases op.atomic_or_madeOf arguments with atomic | ⟨value, same, -⟩
  · rw [failed] at atomic
    cases atomic with
    | arity expected found => exact .inl ⟨expected, found, rfl⟩
    | operand fault => exact .inr ⟨fault, rfl⟩
  · rw [failed] at same
    cases same

end Primitive

end MiniScheme
