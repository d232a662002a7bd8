/-! # Reading numerals

A numeral is an optional sign, then digits with an optional point among or after them or a point followed
by digits, then optionally a letter `e` or `E`, an optional sign and digits. `Numeral.ofChars?` recognises
exactly these texts, and `Numeral.toFloat` is the number in double precision nearest to what the numeral
denotes. -/

namespace MiniScheme

/-- A decimal numeral: a sign and `digits * 10 ^ exponent`. -/
structure Numeral where
  /-- Whether the numeral has a minus sign. -/
  negative : Bool
  /-- The digits before and after the point, read as one natural number. -/
  digits : Nat
  /-- The power of ten. -/
  exponent : Int
  deriving DecidableEq, Repr

namespace Numeral

/-- Splits off an optional sign; the first component tells whether it is a minus. -/
def splitSign : List Char → Bool × List Char
  | '+' :: rest => (false, rest)
  | '-' :: rest => (true, rest)
  | rest => (false, rest)

/-- The natural number that a list of decimal digits denotes. -/
def digitsValue (digits : List Char) : Nat :=
  Nat.ofDigitChars 10 digits 0

/-- The exponent that the end of a numeral denotes: none written counts as zero. -/
def exponentOfChars? : List Char → Option Int
  | [] => some 0
  | marker :: rest =>
      let (negative, digits) := splitSign rest
      if (marker = 'e' ∨ marker = 'E') ∧ digits ≠ [] ∧ digits.all Char.isDigit then
        some (if negative then -(digitsValue digits : Int) else digitsValue digits)
      else none

/-- Splits off the digits after a decimal point, none if there is no point. -/
def splitFraction : List Char → List Char × List Char
  | '.' :: rest => (rest.takeWhile Char.isDigit, rest.dropWhile Char.isDigit)
  | rest => ([], rest)

/-- The numeral that a text denotes, if it is one. -/
def ofChars? (text : List Char) : Option Numeral :=
  let (negative, unsigned) := splitSign text
  let whole := unsigned.takeWhile Char.isDigit
  let (fraction, ending) := splitFraction (unsigned.dropWhile Char.isDigit)
  if whole ++ fraction = [] then none
  else
    (exponentOfChars? ending).map fun exponent =>
      { negative, digits := digitsValue (whole ++ fraction), exponent := exponent - fraction.length }

/-- The numeral that a string denotes, if it is one. -/
def ofString? (text : String) : Option Numeral :=
  ofChars? text.toList

/-- Powers of ten above this one exceed every finite number. -/
def greatestExponent : Int := 310

/-- Positive numbers below ten to this power round to zero. -/
def leastExponent : Int := -330

/-- The magnitude of the numeral, rounded to nearest with ties to even. The exponents that settle the
answer on their own are decided first, so that no huge power of ten is computed. -/
def magnitude (numeral : Numeral) : Float :=
  if numeral.digits = 0 then 0
  else if greatestExponent < numeral.exponent then 1 / 0
  else if numeral.exponent + numeral.digits.log2 + 1 < leastExponent then 0
  else Float.ofScientific numeral.digits (numeral.exponent < 0) numeral.exponent.natAbs

/-- The number that the numeral denotes. -/
def toFloat (numeral : Numeral) : Float :=
  if numeral.negative then -numeral.magnitude else numeral.magnitude

end Numeral

end MiniScheme
