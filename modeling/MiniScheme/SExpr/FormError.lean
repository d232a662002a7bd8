import MiniScheme.SExpr.Reader

/-! # Errors in the shape of forms

Why a symbolic expression is no expression of the language, or no datum, and why a source text cannot be
parsed: either it cannot be read, or one of its forms is wrong. -/

namespace MiniScheme

/-- A form that has a body. -/
inductive BodyForm where
  /-- A procedure. -/
  | lambda
  /-- Local bindings. -/
  | letIn
  deriving DecidableEq, Repr

/-- The word that introduces a form with a body. -/
def BodyForm.word : BodyForm → String
  | .lambda => "lambda"
  | .letIn => "let"

/-- What is wrong with a form. -/
inductive FormError where
  /-- A program has no form. -/
  | emptyProgram
  /-- A text that should hold one expression holds another number of forms. -/
  | notOneExpression (found : Nat)
  /-- A text that should hold one datum holds another number of forms. -/
  | notOneDatum (found : Nat)
  /-- A definition lacks its name and its value. -/
  | defineEmpty
  /-- A definition lacks its value. -/
  | defineNoValue
  /-- A definition does not name an identifier. -/
  | defineTarget
  /-- A definition has more than a name and a value. -/
  | defineSurplus
  /-- A definition stands inside an expression. -/
  | innerDefine
  /-- The keyword of a primitive operator is declared. -/
  | boundPrimitive (name : String)
  /-- An empty list stands where an expression is expected. -/
  | emptyList
  /-- A quotation does not have exactly one datum. -/
  | quoteArity
  /-- A conditional does not have exactly three parts. -/
  | condArity (found : Nat)
  /-- Something other than an identifier is declared. -/
  | notIdentifier (found : SExpr)
  /-- A name is declared twice in one list. -/
  | duplicateParameter (name : String)
  /-- A procedure has no list of parameters. -/
  | lambdaParameters
  /-- Local bindings have no list of bindings. -/
  | letBindings
  /-- A binding is not a list. -/
  | bindingNotList (found : SExpr)
  /-- A binding is not a list of a name and a value. -/
  | bindingShape
  /-- A form has no body. -/
  | emptyBody (form : BodyForm)
  /-- A dot in a datum does not stand before the last of at least two parts. -/
  | misplacedDot

namespace FormError

/-- The message for an error in the shape of a form. -/
def message : FormError → String
  | .emptyProgram => "unexpected empty program"
  | .notOneExpression 0 => "expected one expression, found none"
  | .notOneExpression found => s!"expected one expression, found {found}"
  | .notOneDatum found => s!"expected one datum, found {found}"
  | .defineEmpty => "define missing 2 arguments"
  | .defineNoValue => "define missing 1 argument"
  | .defineTarget => "first argument of define must be an identifier"
  | .defineSurplus => "define has too many arguments"
  | .innerDefine => "define is only allowed at top level"
  | .boundPrimitive name => "cannot bind primitive \x60" ++ name ++ "\x60"
  | .emptyList => "expression cannot be an empty list"
  | .quoteArity => "quote expects exactly one datum"
  | .condArity found =>
      s!"expression not of the form (if <cexp> <cexp> <cexp>), found {found} parts"
  | .notIdentifier found => "expected identifier in declaration, found " ++ found.outline.inline
  | .duplicateParameter name => "duplicate parameter \x60" ++ name ++ "\x60"
  | .lambdaParameters => "invalid parameter list for lambda"
  | .letBindings => "invalid bindings for let"
  | .bindingNotList found => "invalid let binding: " ++ found.outline.inline
  | .bindingShape => "let binding must have the form (<var> <cexp>)"
  | .emptyBody form => form.word ++ " requires at least one body expression"
  | .misplacedDot => "bad dotted datum"

end FormError

/-- Why a source text cannot be parsed. -/
inductive ParseError where
  /-- The text cannot be read. -/
  | unreadable (error : ReadError)
  /-- A form is wrong. -/
  | misshapen (error : FormError)

namespace ParseError

/-- The message for a parse error. -/
def message : ParseError → String
  | .unreadable error => error.message
  | .misshapen error => error.message

instance : ToString ParseError := ⟨message⟩

end ParseError

/-- The trees of a source text, with a reading error as a parse error. -/
def SExpr.parse (source : String) : Except ParseError (List SExpr) :=
  (SExpr.ofText source).mapError .unreadable

/-- A source text that is too long has no trees. -/
theorem SExpr.parse_of_gt {source : String} (exceeds : maxSourceLength < source.utf8ByteSize) :
    SExpr.parse source = .error (.unreadable (.tooLong source.utf8ByteSize)) := by
  rw [SExpr.parse, ofText_of_gt exceeds]
  rfl

end MiniScheme
