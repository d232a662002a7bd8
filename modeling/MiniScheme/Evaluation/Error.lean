import MiniScheme.Contour.Error
import MiniScheme.Value.Basic
import MiniScheme.Value.Text

/-! # Evaluation errors

Every failure aborts the whole evaluation. An error says what went wrong; its message is made from that
in one place. -/

namespace MiniScheme

/-- How many arguments a procedure takes. -/
inductive Arity where
  /-- Exactly so many. -/
  | exactly (count : Nat)
  /-- So many or more. -/
  | atLeast (count : Nat)
  deriving DecidableEq, Repr

/-- The number of arguments in words. -/
def Arity.text : Arity → String
  | .exactly count => toString count
  | .atLeast count => s!"at least {count}"

/-- Why an argument of a primitive operator is refused. -/
inductive OperandFault where
  /-- A number is needed and a value of another kind is given. -/
  | notNumber (found : Value.Kind)
  /-- A truth value is needed and a value of another kind is given. -/
  | notBoolean (found : Value.Kind)
  /-- A pair is needed and a value of another kind is given. -/
  | notPair (found : Value.Kind)
  /-- Two strings are needed and something else is given. -/
  | notStrings
  /-- A divisor is zero. -/
  | zeroDivisor
  deriving DecidableEq, Repr

/-- Why an argument is refused, in words. -/
def OperandFault.message : OperandFault → String
  | .notNumber found => "expected number, found " ++ found.word
  | .notBoolean found => "expected boolean, found " ++ found.word
  | .notPair found => "expected pair, found " ++ found.word
  | .notStrings => "expected two strings"
  | .zeroDivisor => "division by zero"

/-- Why an expression cannot be evaluated where it stands. -/
inductive EvalFault where
  /-- Local bindings, which must be replaced by applications before. -/
  | letForm
  /-- A definition that is not a form of a sequence. -/
  | define (name : String)
  /-- A scope error. -/
  | scope (error : ScopeError)
  deriving DecidableEq, Repr

/-- Why an expression cannot be evaluated, in words. -/
def EvalFault.message : EvalFault → String
  | .letForm => "let must be rewritten before evaluation"
  | .define name => "define of '" ++ name ++ "' outside a sequence"
  | .scope (.malformed fault) => fault.message
  | .scope error => error.message

/-- Why an evaluation fails. -/
inductive EvalError where
  /-- A reference to a name without a definition. -/
  | unboundVariable (name : String)
  /-- An application of a value that is no procedure. -/
  | notProcedure (value : Value)
  /-- An application of a procedure to a wrong number of arguments. -/
  | arityMismatch (callee : Value) (expected : Arity) (found : Nat)
  /-- An argument that a primitive operator refuses. -/
  | operand (op : Primitive) (fault : OperandFault)
  /-- An expression that cannot be evaluated where it stands. -/
  | malformed (fault : EvalFault)
  /-- A sequence with nothing left to evaluate. -/
  | emptySequence

namespace EvalError

/-- A scope error as an evaluation error. -/
def ofScopeError (error : ScopeError) : EvalError :=
  .malformed (.scope error)

/-- The message for an evaluation error. -/
def message : EvalError → String
  | .unboundVariable name => "unbound variable '" ++ name ++ "'"
  | .notProcedure value => "cannot apply " ++ value.text ++ ": not a procedure"
  | .arityMismatch callee expected found =>
      "arity mismatch in " ++ callee.text ++ ": expected " ++ expected.text ++
        " arguments, found " ++ toString found
  | .operand op fault => op.keyword ++ ": " ++ fault.message
  | .malformed fault => "malformed expression: " ++ fault.message
  | .emptySequence => "empty sequence"

instance : ToString EvalError := ⟨message⟩

end EvalError

end MiniScheme
