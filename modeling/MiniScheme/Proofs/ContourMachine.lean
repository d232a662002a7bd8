import MiniScheme.Contour.Addressing
import MiniScheme.Proofs.ValueOver

/-! # A machine for lexical addresses

An environment machine that runs the addressed forms of a program. A procedure keeps the argument frames
of the contours around it, a reference with an address reads an entry of one of the frames, and a free
reference is a primitive operator or else what the latest definition of its name says. Nothing is renamed
and nothing is substituted. As in `Evaluator.eval`, evaluation is cut off at a depth. -/

namespace MiniScheme

/-- A procedure of the machine: parameters, body, and the argument frames of the contours around it, the
innermost first. -/
structure Closure where
  /-- The parameters. -/
  params : List String
  /-- The forms of the body. -/
  body : List LexExpr
  /-- The argument frames. -/
  frames : List (List (ValueOver Closure))

namespace Machine

/-- The values of the machine. -/
abbrev Datum : Type := ValueOver Closure

/-- The argument frames of the contours around a tree, the innermost first. -/
abbrev Frames : Type := List (List Datum)

/-- The definitions in force, the latest first. -/
abbrev Globals : Type := List (String × Datum)

/-- What comes of a run of the machine. -/
abbrev Run : Type := RunOver Closure Datum

/-- What a free name refers to: the primitive operator with this keyword, or else the value by the latest
definition. -/
def readFree (globals : Globals) (name : String) : Run :=
  match Primitive.ofKeyword? name with
  | some op => .ok (.prim op)
  | none =>
      match globals.lookup name with
      | some value => .ok value
      | none => .error (.unboundVariable name)

/-- What an address refers to. The machine is stuck on an address that points to no entry of a frame. -/
def readBound (frames : Frames) (address : Address) : Run :=
  match frames[address.depth]?.bind (·[address.position]?) with
  | some value => .ok value
  | none => .error (.malformed (.scope (.malformed (.addressed (.bound address)))))

/-- Runs forms in order with the given evaluation of trees, and yields the value of the last. -/
def sequence (eval : Globals → LexExpr → Run) : Globals → List AddressedForm → Run
  | _, [] => .error .emptySequence
  | globals, .define name value :: forms => do
      let value ← eval globals value
      sequence eval ((name, value) :: globals) forms
  | globals, [.expr last] => eval globals last
  | globals, .expr tree :: forms => do
      let _ ← eval globals tree
      sequence eval globals forms

/-- Applies a value to arguments, with the given run of the body of a procedure inside some frames. -/
def applyWith (run : Frames → List LexExpr → Run) (procedure : Datum) (arguments : List Datum) : Run :=
  match procedure with
  | .prim op => op.applyOver arguments
  | .procedure code =>
      if code.params.length = arguments.length then run (arguments :: code.frames) code.body
      else .error (.arityMismatch procedure (.exactly code.params.length) arguments.length)
  | _ => .error (.notProcedure procedure)

/-- Evaluates a tree inside some frames, cut off at a depth of nested evaluations. A reference that has no
address yet is taken for a free one. -/
def eval : Nat → Frames → Globals → LexExpr → Run
  | 0, _, _, _ => .error .cutOff
  | depth + 1, frames, globals, tree =>
      match tree with
      | .num value => .ok (.number value)
      | .bool value => .ok (.bool value)
      | .str value => .ok (.string value)
      | .lit value => .ok (.ofData value)
      | .var name => readFree globals name
      | .ref (.free name) => readFree globals name
      | .ref (.bound address) => readBound frames address
      | .cond test consequent alternative => do
          let value ← eval depth frames globals test
          if value.isTrue then eval depth frames globals consequent
          else eval depth frames globals alternative
      | .lambda params body => .ok (.procedure { params, body, frames })
      | .app operator operands => do
          let procedure ← eval depth frames globals operator
          let arguments ← operands.mapM (eval depth frames globals)
          applyWith (fun inner body => sequence (eval depth inner) globals (body.map .expr))
            procedure arguments

/-- Runs the forms of a program, cut off at a depth. -/
def runForms (depth : Nat) (forms : List AddressedForm) : Run :=
  sequence (eval depth []) [] forms

/-! ## Running without a limit on the depth -/

/-- Whether the second run is what the first becomes when the machine may go deeper. -/
def GrowsTo {α : Type} (first second : RunOver Closure α) : Prop :=
  first = .error .cutOff ∨ first = second

variable {α β : Type}

/-- Every run may stay as it is. -/
theorem GrowsTo.refl (run : RunOver Closure α) : GrowsTo run run := .inr rfl

/-- A run that goes on with a result. -/
theorem GrowsTo.bind {first second : RunOver Closure α} {next next' : α → RunOver Closure β}
    (now : GrowsTo first second) (later : ∀ value, GrowsTo (next value) (next' value)) :
    GrowsTo (first >>= next) (second >>= next') := by
  rcases now with cut | same
  · rw [cut]
    exact .inl rfl
  · rw [same]
    cases second with
    | ok value => exact later value
    | error halt => exact .inr rfl

/-- The evaluation of a list. -/
theorem growsTo_mapM {evaluate evaluate' : α → RunOver Closure β}
    (each : ∀ item, GrowsTo (evaluate item) (evaluate' item)) (items : List α) :
    GrowsTo (items.mapM evaluate) (items.mapM evaluate') := by
  induction items with
  | nil => exact .refl _
  | cons item items ih =>
      rw [List.mapM_cons, List.mapM_cons]
      exact (each item).bind fun value => ih.bind fun values => .refl _

/-- The run of a sequence. -/
theorem growsTo_sequence {evaluate evaluate' : Globals → LexExpr → Run}
    (each : ∀ globals tree, GrowsTo (evaluate globals tree) (evaluate' globals tree))
    (globals : Globals) (forms : List AddressedForm) :
    GrowsTo (sequence evaluate globals forms) (sequence evaluate' globals forms) := by
  induction forms generalizing globals with
  | nil => exact .refl _
  | cons form forms ih =>
      cases form with
      | define name value => exact (each globals value).bind fun result => ih _
      | expr tree =>
          cases forms with
          | nil => exact each globals tree
          | cons next rest => exact (each globals tree).bind fun _ => ih globals

/-- An application. -/
theorem growsTo_applyWith {run run' : Frames → List LexExpr → Run}
    (each : ∀ frames body, GrowsTo (run frames body) (run' frames body)) (procedure : Datum)
    (arguments : List Datum) :
    GrowsTo (applyWith run procedure arguments) (applyWith run' procedure arguments) := by
  cases procedure with
  | procedure code =>
      rw [applyWith, applyWith]
      split
      · exact each _ _
      · exact .refl _
  | _ => exact .refl _

/-- A run within a depth stays the same at any greater depth. -/
theorem growsTo_eval {depth more : Nat} (deeper : depth ≤ more) (frames : Frames) (globals : Globals)
    (tree : LexExpr) : GrowsTo (eval depth frames globals tree) (eval more frames globals tree) := by
  -- By induction on the smaller depth, as for evaluation by substitution.
  induction depth generalizing more frames globals tree with
  | zero => exact .inl rfl
  | succ depth ih =>
      obtain ⟨more, rfl⟩ : ∃ less, more = less + 1 := ⟨more - 1, by omega⟩
      have each (frames : Frames) (globals : Globals) (tree : LexExpr) :
          GrowsTo (eval depth frames globals tree) (eval more frames globals tree) :=
        ih (by omega) frames globals tree
      cases tree with
      | cond test consequent alternative =>
          refine (each frames globals test).bind fun value => ?_
          cases value.isTrue with
          | true => exact each frames globals consequent
          | false => exact each frames globals alternative
      | app operator operands =>
          refine (each frames globals operator).bind fun procedure => ?_
          refine (growsTo_mapM (each frames globals) operands).bind fun arguments => ?_
          exact growsTo_applyWith (fun inner body => growsTo_sequence (each inner) globals _)
            procedure arguments
      | ref reference => cases reference <;> exact .refl _
      | _ => exact .refl _

/-- Whether the machine has no outcome on some forms at any depth. -/
def Diverges (forms : List AddressedForm) : Prop :=
  ∀ depth, runForms depth forms = .error .cutOff

/-- Whether the machine yields a value for some forms when it may go deep enough. -/
def Yields (forms : List AddressedForm) (value : Datum) : Prop :=
  ∃ depth, ∀ more, depth ≤ more → runForms more forms = .ok value

/-- Whether the machine fails on some forms when it may go deep enough. -/
def FailsWith (forms : List AddressedForm) (halt : Halt Closure) : Prop :=
  halt ≠ .cutOff ∧ ∃ depth, ∀ more, depth ≤ more → runForms more forms = .error halt

/-- A run that ends at some depth ends so at every greater depth. -/
theorem runForms_of_le {forms : List AddressedForm} {depth more : Nat} (deeper : depth ≤ more)
    (reached : runForms depth forms ≠ .error .cutOff) : runForms more forms = runForms depth forms :=
  ((growsTo_sequence (growsTo_eval deeper []) [] forms).resolve_left reached).symm

/-- A value that is reached at some depth is what the machine yields. -/
theorem yields_of_runForms {forms : List AddressedForm} {depth : Nat} {value : Datum}
    (reached : runForms depth forms = .ok value) : Yields forms value := by
  refine ⟨depth, fun more deeper => ?_⟩
  rw [runForms_of_le deeper (by simp [reached]), reached]

/-- An error that is reached at some depth is what the machine fails with. -/
theorem failsWith_of_runForms {forms : List AddressedForm} {depth : Nat} {halt : Halt Closure}
    (isError : halt ≠ .cutOff) (reached : runForms depth forms = .error halt) :
    FailsWith forms halt := by
  refine ⟨isError, depth, fun more deeper => ?_⟩
  rw [runForms_of_le deeper (by simp [reached, isError]), reached]

end Machine

end MiniScheme
