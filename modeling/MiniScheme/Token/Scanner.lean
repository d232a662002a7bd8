import MiniScheme.Text.StringLiteral
import MiniScheme.Token.Basic

/-! # Scanning source text

The scanner reads a text one character at a time. It is always between two tokens, in a comment, in a
word, or in a string literal, and a word ends in front of the first delimiter. Blanks are the five ASCII
ones, and a comment runs from a semicolon to the end of its line. -/

namespace MiniScheme

/-- Whether the character separates tokens: a space, tab, newline, form feed or carriage return. -/
def isBlank (c : Char) : Bool :=
  c = ' ' || c = '\t' || c = '\n' || c = '\x0c' || c = '\r'

/-- Whether the character ends a word. -/
def isDelimiter (c : Char) : Bool :=
  isBlank c || c = '(' || c = ')' || c = '\x27' || c = '"' || c = ';'

/-- Where in the text the scanner is. -/
inductive Scanner.Mode where
  /-- Between two tokens. -/
  | between
  /-- In a comment. -/
  | comment
  /-- In a word that began at an offset; its characters so far, the last one first. -/
  | word (start : Nat) (reversed : List Char)
  /-- In a string literal that began at an offset; its content so far, the last character first. -/
  | literal (start : Nat) (reversed : List Char)
  /-- In a string literal, after a backslash. -/
  | escape (start : Nat) (reversed : List Char)
  deriving DecidableEq, Repr

/-- The state of a scan. -/
structure Scanner where
  /-- The number of bytes read. -/
  offset : Nat
  /-- Where in the text the scanner is. -/
  mode : Scanner.Mode
  /-- The tokens found so far, the last one first. -/
  reversed : List Token
  deriving DecidableEq, Repr

namespace Scanner

/-- The state before the first character. -/
def initial : Scanner :=
  { offset := 0, mode := .between, reversed := [] }

/-- Adds a token that ends at an offset. -/
def emit (tokens : List Token) (kind : Token.Kind) (start stop : Nat) : List Token :=
  { kind, start, stop } :: tokens

/-- Reads a character between two tokens. -/
def stepBetween (offset : Nat) (tokens : List Token) (c : Char) : Scanner :=
  let next := offset + c.utf8Size
  if isBlank c then { offset := next, mode := .between, reversed := tokens }
  else if c = ';' then { offset := next, mode := .comment, reversed := tokens }
  else if c = '(' then
    { offset := next, mode := .between, reversed := emit tokens .opening offset next }
  else if c = ')' then
    { offset := next, mode := .between, reversed := emit tokens .closing offset next }
  else if c = '\x27' then
    { offset := next, mode := .between, reversed := emit tokens .quoteMark offset next }
  else if c = '"' then { offset := next, mode := .literal offset [], reversed := tokens }
  else { offset := next, mode := .word offset [c], reversed := tokens }

/-- Reads one character. -/
def step (scanner : Scanner) (c : Char) : Scanner :=
  let next := scanner.offset + c.utf8Size
  let tokens := scanner.reversed
  match scanner.mode with
  | .between => stepBetween scanner.offset tokens c
  | .comment =>
      { offset := next, mode := if c = '\n' then .between else .comment, reversed := tokens }
  | .word start chars =>
      if isDelimiter c then
        stepBetween scanner.offset
          (emit tokens (.atom (String.ofList chars.reverse)) start scanner.offset) c
      else { offset := next, mode := .word start (c :: chars), reversed := tokens }
  | .literal start chars =>
      if c = '"' then
        { offset := next
          mode := .between
          reversed := emit tokens (.str (String.ofList chars.reverse)) start next }
      else if c = '\\' then { offset := next, mode := .escape start chars, reversed := tokens }
      else { offset := next, mode := .literal start (c :: chars), reversed := tokens }
  | .escape start chars =>
      { offset := next
        mode := .literal start (StringLiteral.unescape c :: chars)
        reversed := tokens }

/-- The tokens of a text that ends here. -/
def finish (scanner : Scanner) : List Token :=
  match scanner.mode with
  | .between | .comment => scanner.reversed.reverse
  | .word start chars =>
      (emit scanner.reversed (.atom (String.ofList chars.reverse)) start scanner.offset).reverse
  | .literal start _ | .escape start _ =>
      (emit scanner.reversed .unterminated start scanner.offset).reverse

end Scanner

/-- The tokens of a source text. -/
def Token.ofText (source : String) : List Token :=
  (source.toList.foldl Scanner.step Scanner.initial).finish

end MiniScheme
