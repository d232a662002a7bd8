import MiniScheme.Decimal.Layout
import MiniScheme.Expr.Basic
import MiniScheme.Text.StringLiteral

/-! # Text of values

A pair is written as a list of the elements along its chain; if the chain does not end in the empty list,
a dot and the final value follow. A procedure shows its parameters only. -/

namespace MiniScheme

/-- The items of a list with a blank between neighbours. -/
def spaced (items : List String) : String :=
  " ".intercalate items

/-- The text of a truth value. -/
def boolText (value : Bool) : String :=
  if value then "#t" else "#f"

namespace Value

/-- The text of a value that is not a pair; a pair is shown by its brackets alone. -/
def atomText : Value → String
  | .number value => Decimal.Layout.plain.render value
  | .bool value => boolText value
  | .string value => StringLiteral.encode value
  | .symbol name => name
  | .nil => "()"
  | .cons _ _ => "()"
  | .prim op => op.keyword
  | .closure params _ => "#<procedure (" ++ spaced params ++ ")>"

mutual

/-- The text of a value. -/
def text : Value → String
  | .cons car cdr => "(" ++ spaced (car.text :: cdr.tailTexts) ++ ")"
  | atom => atom.atomText

/-- The texts that follow the first element in the brackets of a pair with this second component. -/
def tailTexts : Value → List String
  | .cons car cdr => car.text :: cdr.tailTexts
  | .nil => []
  | atom => [".", atom.atomText]

end

instance : ToString Value := ⟨text⟩

end Value

end MiniScheme
