import MiniScheme.Evaluation.Environment
import MiniScheme.Evaluation.Outcome
import MiniScheme.Expr.Forms
import MiniScheme.Expr.LetElimination
import MiniScheme.Expr.Renaming
import MiniScheme.Primitive.Apply

/-! # Evaluation

Operands are evaluated before a procedure is applied, from left to right. A procedure holds no
environment: applying it renames the names declared in it, substitutes the arguments for its parameters,
and evaluates the resulting forms where it is called. The environment holds definitions only. Evaluation
is cut off when expressions are nested in evaluation deeper than a given depth, so it always ends; a
greater depth never changes an outcome that is reached. -/

namespace MiniScheme

namespace Evaluator

/-- The forms that remain to be evaluated when a procedure is applied to arguments: its body, renamed away
from every name in the arguments, with the arguments in place of the parameters. -/
def instantiate (params : List String) (body : List Expr) (arguments : List Value) : List Expr :=
  let literals := arguments.map Value.toExpr
  let supply := NameSupply.initial.reserve (Expr.allNamesAll literals)
  let apart : StateM NameSupply (List String × List Expr) := do
    modify fun supply => supply.reserve (Expr.lambda params body).allNames
    Expr.redeclare params (← Expr.renameAll body)
  let (renamed, forms) := (apart.run supply).1
  Expr.substAll (.ofLists renamed literals) forms

/-- Evaluates forms in order with the given evaluation of expressions, and yields the value of the last. A
definition extends the environment of the forms after it. -/
def sequence (eval : Environment → Expr → Outcome Value) :
    Environment → List Expr → Outcome Value
  | _, [] => .failure .emptySequence
  | environment, .define name value :: forms => do
      let value ← eval environment value
      sequence eval (environment.extend name value) forms
  | environment, [last] => eval environment last
  | environment, form :: forms => do
      let _ ← eval environment form
      sequence eval environment forms

/-- Applies a value to arguments, with the given evaluation of the forms that remain for a procedure. -/
def applyWith (run : List Expr → Outcome Value) (procedure : Value) (arguments : List Value) :
    Outcome Value :=
  match procedure with
  | .prim op => .ofExcept (op.apply arguments)
  | .closure params body =>
      if params.length = arguments.length then run (instantiate params body arguments)
      else .failure (.arityMismatch procedure (.exactly params.length) arguments.length)
  | _ => .failure (.notProcedure procedure)

/-- Evaluates an expression, cut off at a depth of nested evaluations. -/
def eval : Nat → Environment → Expr → Outcome Value
  | 0, _, _ => .cutOff
  | depth + 1, environment, expr =>
      match expr with
      | .num value => .result (.number value)
      | .bool value => .result (.bool value)
      | .str value => .result (.string value)
      | .lit value => .result value
      | .prim op => .result (.prim op)
      | .var name => .ofExcept (environment.lookup name)
      | .cond test consequent alternative => do
          let value ← eval depth environment test
          if value.isTrue then eval depth environment consequent
          else eval depth environment alternative
      | .lambda params body => .result (.closure params body)
      | .app operator operands => do
          let procedure ← eval depth environment operator
          let arguments ← operands.mapM (eval depth environment)
          applyWith (sequence (eval depth) environment) procedure arguments
      | .letIn _ _ => .failure (.malformed .letForm)
      | .define name _ => .failure (.malformed (.define name))

end Evaluator

namespace Program

/-- Evaluates a program without definitions around it, cut off at a depth. -/
def eval (depth : Nat) (program : Program) : Outcome Value :=
  Evaluator.sequence (Evaluator.eval depth) .empty program.forms

end Program

/-- Parses a program text, replaces its local bindings and evaluates it, cut off at a depth. -/
def runSource (depth : Nat) (source : String) : Except ParseError (Outcome Value) := do
  return (← Program.parse source).eliminateLets.eval depth

end MiniScheme
