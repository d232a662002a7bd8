/-! # Binary numbers and the decimals that read as them

A finite number in double precision is `mantissa * 2 ^ exponent`. The reals that round to it form an
interval: from half way to the neighbour below to half way to the neighbour above, with the ends
included exactly when the mantissa is even. Below a power of two the neighbours are half as far apart,
so the lower end lies closer there. All comparisons are exact, on natural numbers. -/

namespace MiniScheme

/-- A decimal number `digits * 10 ^ exponent`. -/
structure Decimal where
  /-- The digits, read as one natural number. -/
  digits : Nat
  /-- The power of ten. -/
  exponent : Int
  deriving DecidableEq, Repr

/-- The magnitude of a finite number in double precision, `mantissa * 2 ^ exponent`. -/
structure Dyadic where
  /-- The mantissa. -/
  mantissa : Nat
  /-- The power of two. -/
  exponent : Int
  /-- Whether the gap to the number below is half the gap to the number above. -/
  narrowBelow : Bool
  deriving DecidableEq, Repr

/-- Compares `digits * 10 ^ ten` with `units * 2 ^ two`. -/
def compareScaled (digits : Nat) (ten : Int) (units : Nat) (two : Int) : Ordering :=
  compare (digits * Nat.pow 10 ten.toNat * Nat.pow 2 (-two).toNat)
    (units * Nat.pow 2 two.toNat * Nat.pow 10 (-ten).toNat)

namespace Dyadic

/-- The magnitude held in the bits of a finite number. -/
def ofBits (bits : UInt64) : Dyadic :=
  let biased := ((bits >>> 52) &&& 0x7FF).toNat
  let fraction := (bits &&& 0xFFFFFFFFFFFFF).toNat
  if biased = 0 then
    { mantissa := fraction, exponent := -1074, narrowBelow := false }
  else
    { mantissa := Nat.pow 2 52 + fraction
      exponent := (biased : Int) - 1075
      narrowBelow := fraction = 0 ∧ 1 < biased }

/-- Whether a decimal lies in the interval of the reals that round to the number. -/
def readsBack (number : Dyadic) (decimal : Decimal) : Bool :=
  let lower := if number.narrowBelow then 4 * number.mantissa - 1 else 4 * number.mantissa - 2
  let upper := 4 * number.mantissa + 2
  let closed := number.mantissa % 2 = 0
  let fromLower := compareScaled decimal.digits decimal.exponent lower (number.exponent - 2)
  let fromUpper := compareScaled decimal.digits decimal.exponent upper (number.exponent - 2)
  (fromLower = .gt ∨ closed ∧ fromLower = .eq) ∧ (fromUpper = .lt ∨ closed ∧ fromUpper = .eq)

/-- The least power of ten above a non-zero number. It is searched upward from a lower estimate that the
binary length of the number gives. -/
def decimalScale (number : Dyadic) : Int :=
  let bits : Int := number.exponent + number.mantissa.log2
  let estimate := bits * 30103 / 100000 - 1
  let above (scale : Int) : Bool := compareScaled 1 scale number.mantissa number.exponent = .gt
  (([0, 1, 2, 3].map fun step : Int => estimate + step).find? above).getD (estimate + 4)

end Dyadic

end MiniScheme
