import MiniScheme.Contour.Address

/-! # Scope errors

Why a tree cannot be given lexical addresses: a node has no place in an addressable tree, or a contour
declares a name twice or declares the keyword of a primitive operator. -/

namespace MiniScheme

/-- Why a node has no place in an addressable tree. -/
inductive AddressFault where
  /-- Local bindings, which must be replaced by applications before. -/
  | letForm
  /-- A definition inside an expression. -/
  | define (name : String)
  /-- A reference that has its address already. -/
  | addressed (reference : Reference)
  /-- Any other reason, in words. -/
  | other (reason : String)
  deriving DecidableEq, Repr

/-- The reason that a node has no place in an addressable tree, in words. -/
def AddressFault.message : AddressFault → String
  | .letForm => "let must be rewritten before lexical addressing"
  | .define name => "define of '" ++ name ++ "' cannot be lexically addressed"
  | .addressed reference => "unexpected lexical address " ++ reference.text
  | .other reason => reason

/-- Why a tree cannot be given lexical addresses. -/
inductive ScopeError where
  /-- A node has no place in an addressable tree. -/
  | malformed (fault : AddressFault)
  /-- A contour declares a name twice. -/
  | duplicateParameter (name : String)
  /-- A contour declares the keyword of a primitive operator. -/
  | primitiveParameter (name : String)
  deriving DecidableEq, Repr

namespace ScopeError

/-- The message for a scope error. -/
def message : ScopeError → String
  | .malformed fault => "malformed expression: " ++ fault.message
  | .duplicateParameter name => "duplicate parameter '" ++ name ++ "' in one declaration list"
  | .primitiveParameter name => "primitive '" ++ name ++ "' cannot be a parameter"

instance : ToString ScopeError := ⟨message⟩

end ScopeError

end MiniScheme
