import FrameMerge.Binary64

/-!
# The shortest decimal of a binary number

Of all decimals that read back as a given binary floating-point number, those with the fewest digits, and of these the
nearest to the number. The search walks the decimal grids of 1, 2, … 17 digits and tests on each the number's two
neighbours: if any point of a grid reads back, one of the two neighbours does.
-/

namespace FrameMerge

/-- The positive decimal number `coefficient * 10^exponent`. -/
structure Decimal where
  coefficient : Nat
  exponent : Int
  deriving DecidableEq, Repr

namespace Decimal

/-- How many decimal digits a natural number is written with. -/
def digitCount (n : Nat) : Nat := (Nat.toDigits 10 n).length

/-- Moves trailing zeros of a coefficient into the exponent, at most `fuel` of them. -/
def stripZeros : Nat → Decimal → Decimal
  | 0, d => d
  | fuel + 1, d =>
    if d.coefficient % 10 = 0 && d.coefficient ≠ 0 then stripZeros fuel ⟨d.coefficient / 10, d.exponent + 1⟩
    else d

/-- The place of the leading digit: `e` for a number from 10^e up to, but not reaching, 10^(e+1). -/
def leading (d : Decimal) : Int := d.exponent + digitCount d.coefficient - 1

end Decimal

/-- Which of two equally near decimals is taken. -/
inductive DecimalTie
  /-- The one whose last digit is even. -/
  | even
  /-- The greater one. -/
  | up
  deriving DecidableEq

namespace Binary64

open Decimal

/-- The place `e` of the leading decimal digit of the positive ratio `num / den`: 10^e ≤ num / den < 10^(e+1). -/
def leadingPlace (num den : Nat) : Int :=
  if den ≤ num then (digitCount (num / den) : Int) - 1
  else -(digitCount ((den + num - 1) / num - 1) : Int)

/-- Quarter units in one. -/
def quarterUnits : Nat := 1 <<< (unitPlaces + 2)

/-- The decimal of `digits` digits that reads back as the positive finite number `x`, if there is one, the nearer if
there are two. All bounds are counted in quarter units, so that the halfway points to both neighbours are whole
numbers; the lower neighbour of a power of two is half as far away as the upper. A halfway point reads back as the
number with the even fraction, hence the ends belong to the interval exactly when the fraction is even. -/
def onGrid? (tie : DecimalTie) (x : Binary64) (digits : Nat) : Option Decimal :=
  let spacing := 1 <<< (x.exponentField - 1)
  let fraction := x.magnitude % (1 <<< 52)
  let value := 4 * x.units
  let above := value + 2 * spacing
  let below := value - (if fraction = 0 && 1 < x.exponentField then spacing else 2 * spacing)
  let place := leadingPlace value quarterUnits + 1 - digits
  -- a grid point `c` lies at `c * step / scale` quarter units
  let step := Nat.pow 10 place.toNat * quarterUnits
  let scale := Nat.pow 10 (-place).toNat
  let inside (c : Nat) : Bool :=
    if x.magnitude % 2 = 0 then below * scale ≤ c * step && c * step ≤ above * scale
    else below * scale < c * step && c * step < above * scale
  let lower := value * scale / step
  let upper := lower + 1
  let chosen : Option Nat :=
    match inside lower, inside upper with
    | false, false => none
    | true, false => some lower
    | false, true => some upper
    | true, true =>
      let twice := 2 * value * scale
      let middle := (lower + upper) * step
      if twice < middle then some lower
      else if middle < twice then some upper
      else match tie with
        | .even => some (if lower % 2 = 0 then lower else upper)
        | .up => some upper
  chosen.map fun c => stripZeros digits ⟨c, place⟩

/-- The shortest decimal that reads back as the positive finite number `x`. Seventeen digits always suffice; the
exact value stands behind them so that no number is without a decimal. -/
def shortest (tie : DecimalTie) (x : Binary64) : Decimal :=
  ((List.range 17).findSome? fun i => x.onGrid? tie (i + 1)).getD
    ⟨x.units * Nat.pow 5 unitPlaces, -(unitPlaces : Int)⟩

end Binary64

end FrameMerge
