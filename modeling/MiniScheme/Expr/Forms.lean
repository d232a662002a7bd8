import MiniScheme.Value.Datum

/-! # Forms

A symbolic expression as an expression of the language. A list whose first part is one of five special
words is the form of that name; every other list that is not empty is an application. Parts are examined
from left to right, and the first error is reported. -/

namespace MiniScheme

/-- The words that make a list a special form when they stand first in it. -/
inductive SpecialForm where
  /-- A definition. -/
  | define
  /-- A procedure. -/
  | lambda
  /-- A conditional. -/
  | cond
  /-- Local bindings. -/
  | letIn
  /-- Quoted data. -/
  | quote
  deriving DecidableEq, Repr

/-- The special form that a word introduces, if any. -/
def SpecialForm.ofWord? (word : String) : Option SpecialForm :=
  if word = "define" then some .define
  else if word = "lambda" then some .lambda
  else if word = "if" then some .cond
  else if word = "let" then some .letIn
  else if word = "quote" then some .quote
  else none

/-- The special form that a tree introduces when it stands first in a list, if any. -/
def SExpr.specialForm? : SExpr → Option SpecialForm
  | .atom text => SpecialForm.ofWord? text
  | _ => none

/-- Whether a word can be declared: it is neither a truth value nor a lone dot nor a number. -/
def isIdentifier (word : String) : Bool :=
  word != "#t" && word != "#f" && word != "." && (numberOfWord? word).isNone

/-- The name that is bound, unless it is the keyword of a primitive operator. -/
def bindable (name : String) : Except FormError String :=
  match Primitive.ofKeyword? name with
  | some _ => .error (.boundPrimitive name)
  | none => .ok name

/-- The name that a tree declares after the given names of the same list. -/
def declare (seen : List String) : SExpr → Except FormError String
  | .atom name =>
      if isIdentifier name then do
        let name ← bindable name
        if name ∈ seen then .error (.duplicateParameter name) else .ok name
      else .error (.notIdentifier (.atom name))
  | tree => .error (.notIdentifier tree)

/-- The names that a list declares after the given names. -/
def declareAll (seen : List String) : List SExpr → Except FormError (List String)
  | [] => .ok []
  | tree :: trees => do
      let name ← declare seen tree
      return name :: (← declareAll (name :: seen) trees)

namespace Expr

/-- The expression that a word denotes. -/
def ofWord (word : String) : Expr :=
  if word = "#t" then .bool true
  else if word = "#f" then .bool false
  else
    match numberOfWord? word with
    | some value => .num value
    | none =>
        match Primitive.ofKeyword? word with
        | some op => .prim op
        | none => .var word

mutual

/-- The expression that a symbolic expression denotes. -/
def ofSExpr : SExpr → Except FormError Expr
  | .atom text => .ok (ofWord text)
  | .str content => .ok (.str content)
  | .list items => ofList items

/-- The expression that a list with the given parts denotes. -/
def ofList : List SExpr → Except FormError Expr
  | [] => .error .emptyList
  | head :: parts =>
      match head.specialForm? with
      | some .define => .error .innerDefine
      | some .lambda => ofLambda parts
      | some .cond => ofCond parts
      | some .letIn => ofLet parts
      | some .quote => ofQuote parts
      | none => do
          let operator ← ofSExpr head
          return .app operator (← ofAll parts)

/-- The procedure with the given parts. -/
def ofLambda : List SExpr → Except FormError Expr
  | .list params :: body => do
      let params ← declareAll [] params
      return .lambda params (← ofBody .lambda body)
  | _ => .error .lambdaParameters

/-- The conditional with the given parts. -/
def ofCond : List SExpr → Except FormError Expr
  | [test, consequent, alternative] => do
      let test ← ofSExpr test
      let consequent ← ofSExpr consequent
      return .cond test consequent (← ofSExpr alternative)
  | parts => .error (.condArity parts.length)

/-- The local bindings with the given parts. -/
def ofLet : List SExpr → Except FormError Expr
  | .list bindings :: body => do
      let bindings ← ofBindings [] bindings
      return .letIn bindings (← ofBody .letIn body)
  | _ => .error .letBindings

/-- The quotation with the given parts. -/
def ofQuote : List SExpr → Except FormError Expr
  | [datum] => do return .lit (← Value.ofSExpr datum)
  | _ => .error .quoteArity

/-- The bindings that a list denotes after the given names. -/
def ofBindings (seen : List String) : List SExpr → Except FormError (List (String × Expr))
  | [] => .ok []
  | .list [target, value] :: bindings => do
      let name ← declare seen target
      let value ← ofSExpr value
      return (name, value) :: (← ofBindings (name :: seen) bindings)
  | .list _ :: _ => .error .bindingShape
  | tree :: _ => .error (.bindingNotList tree)

/-- The forms of a body, which has at least one. -/
def ofBody (form : BodyForm) : List SExpr → Except FormError (List Expr)
  | [] => .error (.emptyBody form)
  | tree :: trees => do
      let first ← ofSExpr tree
      return first :: (← ofAll trees)

/-- The expressions that a list of symbolic expressions denotes. -/
def ofAll : List SExpr → Except FormError (List Expr)
  | [] => .ok []
  | tree :: trees => do
      let first ← ofSExpr tree
      return first :: (← ofAll trees)

end

/-- The definition with the given parts. -/
def ofDefine : List SExpr → Except FormError Expr
  | [] => .error .defineEmpty
  | [_] => .error .defineNoValue
  | [.atom name, value] =>
      if isIdentifier name then do
        let name ← bindable name
        return .define name (← ofSExpr value)
      else .error .defineTarget
  | [_, _] => .error .defineTarget
  | _ => .error .defineSurplus

/-- The top-level form that a symbolic expression denotes: a definition or an expression. -/
def ofTopLevel : SExpr → Except FormError Expr
  | .list (head :: parts) =>
      if head.specialForm? = some .define then ofDefine parts
      else ofSExpr (.list (head :: parts))
  | tree => ofSExpr tree

/-- Parses a text that holds one top-level form. -/
def parse (source : String) : Except ParseError Expr := do
  match ← SExpr.parse source with
  | [tree] => (ofTopLevel tree).mapError .misshapen
  | trees => .error (.misshapen (.notOneExpression trees.length))

end Expr

namespace Program

/-- The program of the given symbolic expressions, which has at least one form. -/
def ofSExprs (trees : List SExpr) : Except FormError Program :=
  if trees.isEmpty then .error .emptyProgram
  else do return { forms := ← trees.mapM Expr.ofTopLevel }

/-- Parses a program text. -/
def parse (source : String) : Except ParseError Program := do
  (ofSExprs (← SExpr.parse source)).mapError .misshapen

/-- A source text that is too long is no program. -/
theorem parse_of_gt {source : String} (exceeds : maxSourceLength < source.utf8ByteSize) :
    Program.parse source = .error (.unreadable (.tooLong source.utf8ByteSize)) := by
  rw [parse, SExpr.parse_of_gt exceeds]
  rfl

end Program

end MiniScheme
