import MiniScheme.Value.Text

/-! # Source text of expressions

Writes expressions and programs in the concrete syntax that the reader accepts. Literal symbols, lists
and pairs would read back as code, so they are written with a quote mark; every other literal is written
as its value. A program has one top-level form on each line. -/

namespace MiniScheme

namespace Expr

/-- The text of a literal. -/
def literalText : Value → String
  | .symbol name => "'" ++ (Value.symbol name).text
  | .nil => "'" ++ Value.nil.text
  | .cons car cdr => "'" ++ (Value.cons car cdr).text
  | value => value.text

mutual

/-- The source text of an expression. -/
def text : Expr → String
  | .num value => Decimal.Layout.plain.render value
  | .bool value => boolText value
  | .str value => StringLiteral.encode value
  | .var name => name
  | .lit value => literalText value
  | .prim op => op.keyword
  | .cond test consequent alternative =>
      "(if " ++ test.text ++ " " ++ consequent.text ++ " " ++ alternative.text ++ ")"
  | .lambda params body => "(lambda (" ++ spaced params ++ ") " ++ spaced (texts body) ++ ")"
  | .app operator operands => "(" ++ spaced (operator.text :: texts operands) ++ ")"
  | .letIn bindings body =>
      "(let (" ++ spaced (bindingTexts bindings) ++ ") " ++ spaced (texts body) ++ ")"
  | .define name value => "(define " ++ name ++ " " ++ value.text ++ ")"

/-- The source texts of a list of expressions. -/
def texts : List Expr → List String
  | [] => []
  | expr :: exprs => expr.text :: texts exprs

/-- The source texts of a list of bindings. -/
def bindingTexts : List (String × Expr) → List String
  | [] => []
  | (name, value) :: bindings => ("(" ++ name ++ " " ++ value.text ++ ")") :: bindingTexts bindings

end

instance : ToString Expr := ⟨text⟩

/-- Writing a list of expressions writes each of them. -/
@[simp] theorem texts_eq_map (exprs : List Expr) : texts exprs = exprs.map text := by
  induction exprs with
  | nil => rfl
  | cons _ _ ih => simp only [texts, List.map_cons, ih]

/-- Writing a list of bindings writes each of them between brackets. -/
@[simp] theorem bindingTexts_eq_map (bindings : List (String × Expr)) :
    bindingTexts bindings =
      bindings.map fun binding => "(" ++ binding.1 ++ " " ++ binding.2.text ++ ")" := by
  induction bindings with
  | nil => rfl
  | cons _ _ ih => simp only [bindingTexts, List.map_cons, ih]

end Expr

namespace Program

/-- The source text of a program, one top-level form a line. -/
def text (program : Program) : String :=
  "\n".intercalate (program.forms.map Expr.text)

instance : ToString Program := ⟨text⟩

end Program

end MiniScheme
