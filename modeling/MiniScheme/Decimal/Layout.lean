import MiniScheme.Decimal.Shortest

/-! # Decimal text of numbers

A `Decimal.Layout` fixes how a selected decimal is written: which magnitudes are written positionally
and which with an exponent, whether an integral value keeps a decimal point, how an exponent is signed,
and which of two equally near decimals is taken. A negative zero keeps its sign. -/

namespace MiniScheme

namespace Decimal

/-- The decisions of a written form of numbers. -/
structure Layout where
  /-- Whether a number whose leading digit stands for this power of ten is written without an
  exponent. -/
  isPositional : Int → Bool
  /-- Whether an integral value written without an exponent ends in a point and a zero. -/
  pointZero : Bool
  /-- Whether a non-negative exponent has a plus sign. -/
  plusSign : Bool
  /-- Which of two equally near decimals is written. -/
  tie : Tie

/-- The digits of a natural number in base ten. -/
def digitText (value : Nat) : String := toString value

/-- A text of zeros. -/
def zeros (count : Nat) : String := String.ofList (List.replicate count '0')

/-- Writes a decimal without an exponent. -/
def positional (layout : Layout) (decimal : Decimal) : String :=
  let digits := (digitText decimal.digits).toList
  let point := (digits.length : Int) + decimal.exponent
  if 0 ≤ decimal.exponent then
    String.ofList digits ++ zeros decimal.exponent.toNat ++ (if layout.pointZero then ".0" else "")
  else if 0 < point then
    String.ofList (digits.take point.toNat) ++ "." ++ String.ofList (digits.drop point.toNat)
  else
    "0." ++ zeros (-point).toNat ++ String.ofList digits

/-- Writes a decimal with one digit before the point and an exponent. -/
def scientific (layout : Layout) (decimal : Decimal) : String :=
  let digits := (digitText decimal.digits).toList
  let power := decimal.exponent + digits.length - 1
  let fraction := if digits.length ≤ 1 then "" else "." ++ String.ofList (digits.drop 1)
  let sign := if power < 0 then "-" else if layout.plusSign then "+" else ""
  String.ofList (digits.take 1) ++ fraction ++ "e" ++ sign ++ digitText power.natAbs

namespace Layout

/-- Writes the magnitude of a finite number. -/
def magnitude (layout : Layout) (number : Dyadic) : String :=
  if number.mantissa = 0 then
    if layout.pointZero then "0.0" else "0"
  else
    let decimal := number.shortest layout.tie
    let leading := decimal.exponent + (digitText decimal.digits).length - 1
    if layout.isPositional leading then decimal.positional layout else decimal.scientific layout

/-- Writes a number; the numbers that are not finite have names. -/
def render (layout : Layout) (value : Float) : String :=
  let sign := if value.toBits >>> 63 = 1 then "-" else ""
  if value.isNaN then "NaN"
  else if value.isInf then sign ++ "inf"
  else sign ++ layout.magnitude (Dyadic.ofBits value.toBits)

/-- Numbers in programs are written without an exponent, and integral ones without a point. -/
def plain : Layout :=
  { isPositional := fun _ => true, pointZero := false, plusSign := false, tie := .up }

end Layout

end Decimal

end MiniScheme
