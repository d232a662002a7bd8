import MiniScheme.Evaluation.Error

/-! # Environments

An environment holds the definitions made so far. A later definition of a name hides earlier ones and
leaves every other name as it was. -/

namespace MiniScheme

/-- The definitions in force, the latest first. -/
structure Environment where
  /-- The defined names with their values, the latest first. -/
  definitions : List (String × Value)

namespace Environment

/-- The environment without definitions. -/
def empty : Environment :=
  { definitions := [] }

/-- Whether the environment has no definition. -/
def isEmpty (environment : Environment) : Bool :=
  environment.definitions.isEmpty

/-- Adds a definition. -/
def extend (environment : Environment) (name : String) (value : Value) : Environment :=
  { definitions := (name, value) :: environment.definitions }

/-- The value of a name by its latest definition. -/
def lookup (environment : Environment) (name : String) : Except EvalError Value :=
  match environment.definitions.lookup name with
  | some value => .ok value
  | none => .error (.unboundVariable name)

/-- The latest definition of a name gives its value. -/
@[simp] theorem lookup_extend_self (environment : Environment) (name : String) (value : Value) :
    (environment.extend name value).lookup name = .ok value := by
  simp [lookup, extend]

/-- A definition leaves every other name as it was. -/
theorem lookup_extend_of_ne (environment : Environment) {name other : String} (value : Value)
    (different : other ≠ name) :
    (environment.extend name value).lookup other = environment.lookup other := by
  have unequal : (other == name) = false := by simpa using different
  simp [lookup, extend, List.lookup_cons, unequal]

/-- Without definitions every name is unbound. -/
@[simp] theorem lookup_empty (name : String) :
    empty.lookup name = .error (.unboundVariable name) := rfl

end Environment

end MiniScheme
