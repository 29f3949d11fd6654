/-!
# Decimal numbers

A number in positional notation: a sign, the digits as a natural number, and the power of ten that
they count. `ChainDiagram.Decimal.Shortest` turns a single-precision number into such a decimal;
`Decimal.toFloat` goes the other way.
-/

set_option autoImplicit false

namespace ChainDiagram

/-- The number `mantissa * 10 ^ exponent`, below zero if `negative`. Zero has two signs. -/
structure Decimal where
  negative : Bool
  mantissa : Nat
  exponent : Int
  deriving DecidableEq, Repr

namespace Decimal

/-- The value of a run of decimal digits. -/
def ofDigits (digits : List Char) : Nat := Nat.ofDigitChars 10 digits 0

theorem ofDigits_toDigits (n : Nat) : ofDigits (Nat.toDigits 10 n) = n :=
  Nat.ofDigitChars_toDigits (by decide) (by decide)

/-- The value is below `10 ^ magnitude`. -/
def magnitude (d : Decimal) : Int := (Nat.toDigits 10 d.mantissa).length + d.exponent

/-- The nearest double-precision number. Powers of ten far outside of its range are not computed:
what is so small rounds to zero, and what is so large to infinity. -/
def toFloat (d : Decimal) : Float :=
  let size : Float :=
    if d.mantissa = 0 ∨ d.magnitude < -400 then 0.0
    else if 400 < d.magnitude then 1.0 / 0.0
    else Float.ofScientific d.mantissa (d.exponent < 0) d.exponent.natAbs
  if d.negative then -size else size

end Decimal

end ChainDiagram
