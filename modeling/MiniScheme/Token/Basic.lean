/-! # Tokens

The lexical units of source text. A token carries the byte offsets, in the encoding of the text as
UTF-8, of its first byte and of the byte after its last. -/

namespace MiniScheme

/-- What a token is. -/
inductive Token.Kind where
  /-- An opening bracket. -/
  | opening
  /-- A closing bracket. -/
  | closing
  /-- The quote mark in front of a datum. -/
  | quoteMark
  /-- A string literal with its content. -/
  | str (content : String)
  /-- A word: an identifier, keyword, number or truth value. -/
  | atom (text : String)
  /-- A string literal that the text ends inside of. -/
  | unterminated
  deriving DecidableEq, Repr

/-- A token and the part of the text that it covers. -/
structure Token where
  /-- What the token is. -/
  kind : Token.Kind
  /-- The offset of the first byte. -/
  start : Nat
  /-- The offset after the last byte. -/
  stop : Nat
  deriving DecidableEq, Repr

end MiniScheme
