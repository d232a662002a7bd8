import MiniScheme.Expr.Names
import MiniScheme.Expr.Substitution
import MiniScheme.NameSupply

/-! # Renaming declared names

Renaming gives every declared name a fresh one and leaves free references alone. Inner declarations are
renamed before outer ones, so that the substitution of the outer names meets only fresh names below it
and nothing is captured. All names of a program are reserved beforehand, so that no fresh name coincides
with a free reference. -/

namespace MiniScheme

namespace Expr

/-- Fresh names for the declared ones, and the body with these in their place. -/
def redeclare (names : List String) (body : List Expr) :
    StateM NameSupply (List String × List Expr) := do
  let renamed ← names.mapM NameSupply.fresh
  return (renamed, substAll (.ofLists names (renamed.map .var)) body)

mutual

/-- Renames every name declared in an expression. -/
def rename : Expr → StateM NameSupply Expr
  | .num value => return .num value
  | .bool value => return .bool value
  | .str value => return .str value
  | .var name => return .var name
  | .lit value => return .lit value
  | .prim op => return .prim op
  | .cond test consequent alternative => do
      let test ← rename test
      let consequent ← rename consequent
      return .cond test consequent (← rename alternative)
  | .lambda params body => do
      let body ← renameAll body
      let (params, body) ← redeclare params body
      return .lambda params body
  | .app operator operands => do
      let operator ← rename operator
      return .app operator (← renameAll operands)
  | .letIn bindings body => do
      let values ← renameBound bindings
      let body ← renameAll body
      let (names, body) ← redeclare (bindings.map Prod.fst) body
      return .letIn (names.zip values) body
  | .define name value => return .define name (← rename value)

/-- Renames every name declared in a list of expressions, from left to right. -/
def renameAll : List Expr → StateM NameSupply (List Expr)
  | [] => return []
  | expr :: exprs => do
      let expr ← rename expr
      return expr :: (← renameAll exprs)

/-- Renames every name declared in the bound expressions of bindings, which are the result. -/
def renameBound : List (String × Expr) → StateM NameSupply (List Expr)
  | [] => return []
  | (_, value) :: bindings => do
      let value ← rename value
      return value :: (← renameBound bindings)

end

/-- Renames every name declared in the expressions, after reserving all their names. -/
def renameApart (exprs : List Expr) : StateM NameSupply (List Expr) := do
  modify fun supply => supply.reserve (allNamesAll exprs)
  renameAll exprs

end Expr

namespace Program

/-- Renames every declared name of a program, drawing names from a supply that lives on. -/
def renameWith (program : Program) : StateM NameSupply Program := do
  return { forms := ← Expr.renameApart program.forms }

/-- Renames every declared name of a program, numbering from 1. -/
def rename (program : Program) : Program :=
  (program.renameWith.run .initial).1

end Program

end MiniScheme
