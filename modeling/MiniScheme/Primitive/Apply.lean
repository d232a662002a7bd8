import MiniScheme.Evaluation.Error

/-! # Applying primitive operators

The arithmetic operators take any number of arguments, check from the left that all are numbers, and work
from the left; all other operators but `list` take a fixed number of arguments and check it first. -/

namespace MiniScheme

namespace Primitive

/-- The error for a wrong number of arguments. -/
def arityError (op : Primitive) (expected : Arity) (found : Nat) : EvalError :=
  .arityMismatch (.prim op) expected found

/-- The only argument. -/
def one (op : Primitive) : List Value → Except EvalError Value
  | [argument] => .ok argument
  | arguments => .error (op.arityError (.exactly 1) arguments.length)

/-- The two arguments. -/
def two (op : Primitive) : List Value → Except EvalError (Value × Value)
  | [first, second] => .ok (first, second)
  | arguments => .error (op.arityError (.exactly 2) arguments.length)

/-- A number among the arguments. -/
def number (op : Primitive) : Value → Except EvalError Float
  | .number value => .ok value
  | other => .error (.operand op (.notNumber other.kind))

/-- A truth value among the arguments. -/
def boolean (op : Primitive) : Value → Except EvalError Bool
  | .bool value => .ok value
  | other => .error (.operand op (.notBoolean other.kind))

/-- Compares two numbers. -/
def compareNumbers (op : Primitive) (relation : Float → Float → Bool) (arguments : List Value) :
    Except EvalError Value := do
  let (first, second) ← op.two arguments
  let first ← op.number first
  return .bool (relation first (← op.number second))

/-- Combines two truth values. -/
def combineBooleans (op : Primitive) (combine : Bool → Bool → Bool) (arguments : List Value) :
    Except EvalError Value := do
  let (first, second) ← op.two arguments
  let first ← op.boolean first
  return .bool (combine first (← op.boolean second))

/-- Tests one value of any kind. -/
def recognise (op : Primitive) (test : Value → Bool) (arguments : List Value) :
    Except EvalError Value := do
  return .bool (test (← op.one arguments))

/-- Equality of atoms; two pairs or two procedures with a body are never equal. -/
def equalAtoms : Value → Value → Bool
  | .number first, .number second => first == second
  | .bool first, .bool second => first == second
  | .string first, .string second => first == second
  | .symbol first, .symbol second => first == second
  | .nil, .nil => true
  | .prim first, .prim second => first == second
  | _, _ => false

/-- The difference of the first number and all others, or the negation of the only one. -/
def subtract : List Float → Except EvalError Value
  | [] => .error (sub.arityError (.atLeast 1) 0)
  | [value] => .ok (.number (-value))
  | first :: rest => .ok (.number (rest.foldl (· - ·) first))

/-- The quotient of the first number and all others, none of which may be zero. -/
def divide : List Float → Except EvalError Value
  | [] => .error (div.arityError (.atLeast 2) 0)
  | [_] => .error (div.arityError (.atLeast 2) 1)
  | first :: rest =>
      if rest.any (· == 0) then .error (.operand div .zeroDivisor)
      else .ok (.number (rest.foldl (· / ·) first))

/-- The components of the only argument, which must be a pair. -/
def components (op : Primitive) (arguments : List Value) : Except EvalError (Value × Value) := do
  match ← op.one arguments with
  | .cons first second => .ok (first, second)
  | other => .error (.operand op (.notPair other.kind))

/-- Applies a primitive operator to arguments. A sum starts from negative zero, which leaves every number
as it is. -/
def apply (op : Primitive) (arguments : List Value) : Except EvalError Value :=
  match op with
  | .add => do return .number ((← arguments.mapM op.number).foldl (· + ·) (-0.0))
  | .mul => do return .number ((← arguments.mapM op.number).foldl (· * ·) 1)
  | .sub => do subtract (← arguments.mapM op.number)
  | .div => do divide (← arguments.mapM op.number)
  | .lt => op.compareNumbers (fun first second => first < second) arguments
  | .gt => op.compareNumbers (fun first second => second < first) arguments
  | .numEq => op.compareNumbers (· == ·) arguments
  | .not => op.recognise (fun value => !value.isTrue) arguments
  | .and => op.combineBooleans (· && ·) arguments
  | .or => op.combineBooleans (· || ·) arguments
  | .eq => do
      let (first, second) ← op.two arguments
      return .bool (equalAtoms first second)
  | .stringEq => do
      match ← op.two arguments with
      | (.string first, .string second) => return .bool (first == second)
      | _ => .error (.operand op .notStrings)
  | .cons => do
      let (first, second) ← op.two arguments
      return .cons first second
  | .car => return (← op.components arguments).1
  | .cdr => return (← op.components arguments).2
  | .list => .ok (.ofList arguments)
  | .isPair => op.recognise (fun value => value.kind == .pair) arguments
  | .isList => op.recognise Value.isList arguments
  | .isNumber => op.recognise (fun value => value.kind == .number) arguments
  | .isBoolean => op.recognise (fun value => value.kind == .boolean) arguments
  | .isSymbol => op.recognise (fun value => value.kind == .symbol) arguments
  | .isString => op.recognise (fun value => value.kind == .string) arguments

end Primitive

end MiniScheme
