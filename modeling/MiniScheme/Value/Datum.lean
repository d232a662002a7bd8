import MiniScheme.Decimal.Numeral
import MiniScheme.SExpr.FormError
import MiniScheme.Value.Basic

/-! # Data

A symbolic expression as quoted data: words become truth values, numbers or symbols, and a list becomes a
chain of pairs that ends in the empty list, or, if a dot stands before its last part, in that part. Of
several errors in one list the last is reported. -/

namespace MiniScheme

/-- The number that a word denotes, if it is a numeral. -/
def numberOfWord? (word : String) : Option Float :=
  (Numeral.ofString? word).map Numeral.toFloat

namespace SExpr

/-- Whether the tree is the word that consists of a dot. -/
def isDot : SExpr → Bool
  | .atom text => text == "."
  | _ => false

/-- Whether the first dot of a list, if there is one, stands elsewhere than between a part and the last
part. -/
def misplacesDot (items : List SExpr) : Bool :=
  match items.findIdx? isDot with
  | none => false
  | some position => !(0 < position && position + 2 == items.length)

end SExpr

namespace Value

/-- The datum that a word denotes. -/
def ofWord (word : String) : Value :=
  if word = "#t" then .bool true
  else if word = "#f" then .bool false
  else
    match numberOfWord? word with
    | some value => .number value
    | none => .symbol word

mutual

/-- The datum that a symbolic expression denotes. -/
def ofSExpr : SExpr → Except FormError Value
  | .atom text => .ok (ofWord text)
  | .str content => .ok (.string content)
  | .list items => if SExpr.misplacesDot items then .error .misplacedDot else chainOf items

/-- The chain of pairs that the parts of a list denote, its end before its beginning. -/
def chainOf : List SExpr → Except FormError Value
  | [] => .ok .nil
  | [.atom ".", last] => ofSExpr last
  | item :: items => do
      let cdr ← chainOf items
      let car ← ofSExpr item
      return .cons car cdr

end

/-- Parses a text that holds one datum. -/
def parse (source : String) : Except ParseError Value := do
  match ← SExpr.parse source with
  | [tree] => (ofSExpr tree).mapError .misshapen
  | trees => .error (.misshapen (.notOneDatum trees.length))

/-- A source text that is too long is no datum. -/
theorem parse_of_gt {source : String} (exceeds : maxSourceLength < source.utf8ByteSize) :
    Value.parse source = .error (.unreadable (.tooLong source.utf8ByteSize)) := by
  rw [parse, SExpr.parse_of_gt exceeds]
  rfl

end Value

end MiniScheme
