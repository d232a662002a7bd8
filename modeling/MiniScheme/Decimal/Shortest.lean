import MiniScheme.Decimal.Dyadic

/-! # The shortest decimal of a number

`Dyadic.shortest` selects, among the decimals with the fewest digits that read back as a number, the one
nearest to it. For one digit, two digits and so on it looks at the number's two neighbours on the grid of
decimals of that length: if any point of the grid reads back, so does one of these two. When both
neighbours are equally near, the tie rule decides. -/

namespace MiniScheme

/-- Which of two equally near decimals is chosen. -/
inductive Tie where
  /-- The one further from zero. -/
  | up
  /-- The one with an even last digit. -/
  | toEven
  deriving DecidableEq, Repr

namespace Dyadic

/-- The number divided by a power of ten, as a fraction of naturals. -/
def overPowerOfTen (number : Dyadic) (ten : Int) : Nat × Nat :=
  (number.mantissa * Nat.pow 2 number.exponent.toNat * Nat.pow 10 (-ten).toNat,
    Nat.pow 2 (-number.exponent).toNat * Nat.pow 10 ten.toNat)

/-- The decimal nearest to the number among the multiples of a power of ten that read back as it. -/
def onGrid? (tie : Tie) (number : Dyadic) (ten : Int) : Option Decimal :=
  let (numerator, denominator) := number.overPowerOfTen ten
  let below : Decimal := { digits := numerator / denominator, exponent := ten }
  let above : Decimal := { digits := numerator / denominator + 1, exponent := ten }
  match number.readsBack below, number.readsBack above with
  | false, false => none
  | true, false => some below
  | false, true => some above
  | true, true =>
      match compare (2 * numerator) ((2 * below.digits + 1) * denominator) with
      | .lt => some below
      | .gt => some above
      | .eq =>
          match tie with
          | .up => some above
          | .toEven => some (if below.digits % 2 = 0 then below else above)

/-- The number of digits that always suffices to read a number back. -/
def sufficientDigits : Nat := 17

/-- The exact value of the number as a decimal. -/
def exactDecimal (number : Dyadic) : Decimal :=
  { digits := number.mantissa * Nat.pow 2 number.exponent.toNat * Nat.pow 5 (-number.exponent).toNat
    exponent := min number.exponent 0 }

end Dyadic

namespace Decimal

/-- Drops the trailing zeros of the digits, at most as many as the given bound. -/
def stripZeros : Nat → Decimal → Decimal
  | 0, decimal => decimal
  | bound + 1, decimal =>
      if decimal.digits % 10 = 0 then
        stripZeros bound { digits := decimal.digits / 10, exponent := decimal.exponent + 1 }
      else decimal

end Decimal

namespace Dyadic

/-- The shortest decimal that reads back as a non-zero number, the nearest one of that length. -/
def shortest (tie : Tie) (number : Dyadic) : Decimal :=
  let scale := number.decimalScale
  let lengths := (List.range sufficientDigits).map fun length : Nat => (length : Int) + 1
  let found := (lengths.findSome? fun length => number.onGrid? tie (scale - length)).getD
    number.exactDecimal
  found.stripZeros (found.digits.log2 + 1)

end Dyadic

end MiniScheme
