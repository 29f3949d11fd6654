import ChainDiagram.Decimal

/-!
# The shortest decimal of a single-precision number

A finite number of single precision is `m * 2 ^ q`. Every real number of the interval around it that
rounds to it denotes it just as well, and of these this file picks a decimal with as few digits as
possible: it tries the powers of ten from large to small as a grid and takes the first grid that
has a point in the interval.

## What is here

* `Binary`: a positive number `m * 2 ^ q` and its rounding interval.
* `Binary.onGrid?`: the point of the grid of multiples of `10 ^ e` that is nearest to the number, if
  it lies in the interval.
* `Binary.shortest`: the point on the coarsest grid that has one.
* `Decimal.ofFloat32?`: the decimal of a finite number.
-/

set_option autoImplicit false

namespace ChainDiagram

/-- The number `significand * 2 ^ exponent`. The numbers of single precision next to it lie
`2 ^ exponent` away, but only half as far below it if it is the `lowest` of its binade. -/
structure Binary where
  significand : Nat
  exponent : Int
  lowest : Bool
  deriving DecidableEq, Repr

namespace Binary

/-- Whether `point` lies in the rounding interval of a number: between `low` and `high`, and on an
end only if the significand is even, since a tie rounds to the even one. -/
def within (even : Bool) (low high point : Nat) : Bool :=
  if even then low ≤ point && point ≤ high else low < point && point < high

/-- The multiple of `10 ^ grid` nearest to the number, if it rounds to the number; of two that are
equally near, the even multiple. All quantities are compared after multiplication by
`4 * 2 ^ (-exponent) * 10 ^ (-grid)`, so far as these powers are integers. -/
def onGrid? (b : Binary) (grid : Int) : Option Nat :=
  let scale := Nat.pow 2 (b.exponent - 2).toNat * Nat.pow 10 (-grid).toNat
  let unit := Nat.pow 2 (2 - b.exponent).toNat * Nat.pow 10 grid.toNat
  let value := 4 * b.significand * scale
  let low := (4 * b.significand - if b.lowest then 1 else 2) * scale
  let high := (4 * b.significand + 2) * scale
  let even := b.significand % 2 = 0
  let below := value / unit
  let above := below + 1
  let lower := within even low high (below * unit)
  let upper := within even low high (above * unit)
  if lower && upper then
    let down := value - below * unit
    let up := above * unit - value
    if down < up then some below
    else if up < down then some above
    else if below % 2 = 0 then some below else some above
  else if lower then some below
  else if upper then some above
  else none

/-- The largest power of ten that single precision reaches. -/
def coarsestGrid : Int := 38

/-- On the grid of multiples of `10 ^ -53` every rounding interval has a point. -/
def gridCount : Nat := 92

/-- The fewest digits that denote the number, with the power of ten they count. -/
def shortest (b : Binary) : Nat × Int :=
  let hit := (List.range gridCount).findSome? fun (i : Nat) =>
    let grid : Int := coarsestGrid - i
    (b.onGrid? grid).map fun n => (n, grid)
  hit.getD (0, 0)

end Binary

/-- The shortest decimal that rounds to a finite number, and none for an infinity or for what is
not a number. -/
def Decimal.ofFloat32? (x : Float32) : Option Decimal :=
  let bits := x.toBits.toNat
  let negative := 0x80000000 ≤ bits
  let biased : Nat := bits / 0x800000 % 0x100
  let fraction : Nat := bits % 0x800000
  if biased = 255 then none
  else if biased = 0 ∧ fraction = 0 then some ⟨negative, 0, 0⟩
  else
    let binary : Binary :=
      if biased = 0 then ⟨fraction, -149, false⟩
      else ⟨0x800000 + fraction, (biased : Int) - 150, fraction = 0 ∧ 1 < biased⟩
    let (mantissa, exponent) := binary.shortest
    some ⟨negative, mantissa, exponent⟩

end ChainDiagram
