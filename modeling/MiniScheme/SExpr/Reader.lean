import MiniScheme.SExpr.Basic
import MiniScheme.Token.Scanner

/-! # Reading symbolic expressions

The reader takes the tokens one at a time and keeps the lists that are still open, the innermost first. A
reading fails at once if the text is too long, at the first token that no well-formed text could have there, or
at the end of the text if something is still missing. -/

namespace MiniScheme

/-- Why a text cannot be read. Positions are byte offsets. -/
inductive ReadError where
  /-- The text has too many bytes, and how many. -/
  | tooLong (length : Nat)
  /-- A string literal does not end. -/
  | unterminatedString (offset : Nat)
  /-- A closing bracket has nothing to close. -/
  | unexpectedClosing (offset : Nat)
  /-- An opening bracket is never closed. -/
  | unclosed (offset : Nat)
  /-- Too many lists are nested in one another. -/
  | tooDeep
  /-- The text ends after a quote mark. -/
  | unexpectedEnd
  deriving DecidableEq, Repr

/-- The greatest number of lists that may be nested in one another. -/
def maxNesting : Nat := 512

/-- The greatest number of bytes that a text may have: byte offsets have 32 bits. -/
def maxSourceLength : Nat := 4294967295

namespace ReadError

/-- The message for a reading error. -/
def message : ReadError → String
  | .tooLong length => s!"source is {length} bytes; at most {maxSourceLength} bytes can be parsed"
  | .unterminatedString offset => s!"unterminated string literal at offset {offset}"
  | .unexpectedClosing offset => s!"unexpected ')' at offset {offset}"
  | .unclosed offset => s!"unclosed '(' at offset {offset}"
  | .tooDeep => s!"nesting depth limit exceeded (limit: {maxNesting})"
  | .unexpectedEnd => "unexpected end of input"

/-- The message about a text that is too long tells how many bytes it has and how many it may have. -/
theorem message_tooLong (length : Nat) :
    (tooLong length).message =
      "source is " ++ toString length ++ " bytes; at most 4294967295 bytes can be parsed" := by
  have limit : " bytes; at most 4294967295 bytes can be parsed" =
      " bytes; at most " ++ toString maxSourceLength ++ " bytes can be parsed" := by decide
  rw [limit, ← String.append_assoc, ← String.append_assoc]
  rfl

end ReadError

/-- A sequence of symbolic expressions that is being read. -/
structure Reader.Level where
  /-- The trees read so far, the last one first. -/
  reversed : List SExpr
  /-- The number of quote marks that wait for a tree. -/
  marks : Nat

/-- The state of a reading. -/
structure Reader where
  /-- The innermost sequence. -/
  level : Reader.Level
  /-- For each open list, the innermost first, the offset of its bracket and the sequence it stands in. -/
  enclosing : List (Nat × Reader.Level)

namespace Reader

namespace Level

/-- The sequence with nothing read. -/
def empty : Level :=
  { reversed := [], marks := 0 }

/-- Adds a tree, quoted by the marks that wait for it. -/
def push (level : Level) (tree : SExpr) : Level :=
  { reversed := tree.quotedTimes level.marks :: level.reversed, marks := 0 }

end Level

/-- The state before the first token. -/
def initial : Reader :=
  { level := .empty, enclosing := [] }

/-- Reads one token. -/
def step (reader : Reader) (token : Token) : Except ReadError Reader :=
  match token.kind with
  | .atom text => .ok { reader with level := reader.level.push (.atom text) }
  | .str content => .ok { reader with level := reader.level.push (.str content) }
  | .quoteMark => .ok { reader with level := { reader.level with marks := reader.level.marks + 1 } }
  | .opening =>
      if maxNesting ≤ reader.enclosing.length then .error .tooDeep
      else .ok { level := .empty, enclosing := (token.start, reader.level) :: reader.enclosing }
  | .closing =>
      if 0 < reader.level.marks then .error (.unexpectedClosing token.start)
      else
        match reader.enclosing with
        | [] => .error (.unexpectedClosing token.start)
        | (_, outer) :: enclosing =>
            .ok { level := outer.push (.list reader.level.reversed.reverse), enclosing }
  | .unterminated => .error (.unterminatedString token.start)

/-- The trees of a token sequence that ends here. -/
def finish (reader : Reader) : Except ReadError (List SExpr) :=
  if 0 < reader.level.marks then .error .unexpectedEnd
  else
    match reader.enclosing with
    | [] => .ok reader.level.reversed.reverse
    | (offset, _) :: _ => .error (.unclosed offset)

end Reader

namespace SExpr

/-- Reads the trees of a token sequence. -/
def ofTokens (tokens : List Token) : Except ReadError (List SExpr) := do
  (← tokens.foldlM Reader.step Reader.initial).finish

/-- Reads the trees of a source text. The length is checked before there is any token. -/
def ofText (source : String) : Except ReadError (List SExpr) :=
  if maxSourceLength < source.utf8ByteSize then .error (.tooLong source.utf8ByteSize)
  else ofTokens (Token.ofText source)

section ofText

variable {source : String} {trees : List SExpr}

/-- A text that is too long is rejected whatever it says. -/
theorem ofText_of_gt (exceeds : maxSourceLength < source.utf8ByteSize) :
    ofText source = .error (.tooLong source.utf8ByteSize) :=
  if_pos exceeds

/-- A text that is not too long is read as its tokens. -/
theorem ofText_of_le (fits : source.utf8ByteSize ≤ maxSourceLength) :
    ofText source = ofTokens (Token.ofText source) :=
  if_neg (Nat.not_lt_of_le fits)

/-- Trees are read from a text if it is not too long and they are the trees of its tokens. -/
theorem ofText_eq_ok_iff :
    ofText source = .ok trees ↔
      source.utf8ByteSize ≤ maxSourceLength ∧ ofTokens (Token.ofText source) = .ok trees := by
  rcases Nat.lt_or_ge maxSourceLength source.utf8ByteSize with exceeds | fits
  · rw [ofText_of_gt exceeds]
    constructor
    · rintro ⟨⟩
    · rintro ⟨fits, -⟩
      exact absurd fits (Nat.not_le_of_lt exceeds)
  · rw [ofText_of_le fits, and_iff_right fits]

end ofText

end SExpr

end MiniScheme
