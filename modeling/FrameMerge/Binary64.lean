/-!
# Binary floating-point numbers

Sixty-four bit binary floating-point numbers as exact data: a sign and a magnitude that counts the representable
numbers from zero upwards. Every finite value is a whole number of *units* of 2^-1074, so arithmetic is exact
arithmetic on natural numbers followed by one rounding, and comparison is comparison of magnitudes.
-/

namespace FrameMerge

/-- The nearest natural number to `num / den`; a half goes to the even neighbour. -/
def roundHalfEven (num den : Nat) : Nat :=
  let quotient := num / den
  let twice := 2 * (num % den)
  if twice < den then quotient
  else if den < twice then quotient + 1
  else if quotient % 2 = 0 then quotient else quotient + 1

/-- A sixty-four bit binary floating-point number. The magnitude is the interchange format without its sign bit: the
biased exponent times 2^52 plus the fraction, so that larger magnitudes are larger numbers. -/
structure Binary64 where
  negative : Bool
  magnitude : Nat
  magnitude_lt : magnitude < 1 <<< 63
  deriving DecidableEq

namespace Binary64

/-- The binary places of a unit. -/
def unitPlaces : Nat := 1074

/-- The magnitude of infinity: all exponent bits set and no fraction. -/
def infinityMagnitude : Nat := 2047 <<< 52

/-- Magnitudes leave the bit of the sign free. -/
theorem min_infinityMagnitude_lt (magnitude : Nat) : min magnitude infinityMagnitude < 1 <<< 63 := by
  rw [infinityMagnitude]
  omega

/-- A number of the given sign whose magnitude is cut off at infinity. -/
def ofMagnitude (negative : Bool) (magnitude : Nat) : Binary64 where
  negative
  magnitude := min magnitude infinityMagnitude
  magnitude_lt := min_infinityMagnitude_lt magnitude

def zero : Binary64 := ofMagnitude false 0

instance : Inhabited Binary64 := ⟨zero⟩

/-- What numbers too great are rounded to. -/
def infinity (negative : Bool) : Binary64 := ofMagnitude negative infinityMagnitude

/-- The quiet "not a number". -/
def nan : Binary64 := ⟨false, infinityMagnitude + (1 <<< 51), by decide⟩

/-- The interchange bits. -/
def bits (x : Binary64) : Nat := (if x.negative then 1 <<< 63 else 0) + x.magnitude

def isNaN (x : Binary64) : Bool := infinityMagnitude < x.magnitude

def isInfinite (x : Binary64) : Bool := x.magnitude == infinityMagnitude

def isZero (x : Binary64) : Bool := x.magnitude == 0

def isFinite (x : Binary64) : Bool := x.magnitude < infinityMagnitude

/-- The exponent field. -/
def exponentField (x : Binary64) : Nat := x.magnitude >>> 52

/-- The absolute value of a finite number, in units of 2^-1074. -/
def units (x : Binary64) : Nat :=
  let fraction := x.magnitude % (1 <<< 52)
  if x.exponentField = 0 then fraction else ((1 <<< 52) + fraction) <<< (x.exponentField - 1)

/-- The magnitude of the representable number nearest to `num / den` units. With `k` the number of binary places
beyond the 53 that fit, the neighbours are the multiples of 2^k units, and the `r`-th of them has magnitude
`k * 2^52 + r`: rounding up to the next power of two carries into the exponent by itself. -/
def nearestMagnitude (num den : Nat) : Nat :=
  let k := Nat.log2 (num / den) - 52
  (k <<< 52) + roundHalfEven num (den <<< k)

/-- The number nearest to `num / den` units, infinite beyond the largest. -/
def ofRatio (negative : Bool) (num den : Nat) : Binary64 :=
  ofMagnitude negative (nearestMagnitude num den)

/-- The number closest to a natural one. -/
def ofNat (n : Nat) : Binary64 := ofRatio false (n <<< unitPlaces) 1

/-- The number nearest to `coefficient * 10^exponent`. -/
def ofDecimal (negative : Bool) (coefficient : Nat) (exponent : Int) : Binary64 :=
  if 0 ≤ exponent then ofRatio negative ((coefficient * Nat.pow 10 exponent.toNat) <<< unitPlaces) 1
  else ofRatio negative (coefficient <<< unitPlaces) (Nat.pow 10 (-exponent).toNat)

/-- The other sign. -/
def neg (x : Binary64) : Binary64 := { x with negative := !x.negative }

/-- The product, rounded once. -/
def mul (x y : Binary64) : Binary64 :=
  let negative := x.negative != y.negative
  if x.isNaN || y.isNaN then nan
  else if x.isInfinite || y.isInfinite then
    if x.isZero || y.isZero then nan else infinity negative
  else ofRatio negative (x.units * y.units) (1 <<< unitPlaces)

/-- The quotient, rounded once. -/
def div (x y : Binary64) : Binary64 :=
  let negative := x.negative != y.negative
  if x.isNaN || y.isNaN then nan
  else if x.isInfinite then if y.isInfinite then nan else infinity negative
  else if y.isInfinite then ofMagnitude negative 0
  else if y.isZero then if x.isZero then nan else infinity negative
  else ofRatio negative (x.units <<< unitPlaces) y.units

/-- Where a number lies on the line; both zeros lie at the same place. -/
def position (x : Binary64) : Int := if x.negative then -(x.magnitude : Int) else x.magnitude

/-- Strictly less; never so beside a "not a number". -/
def lt (x y : Binary64) : Bool := !x.isNaN && !y.isNaN && x.position < y.position

/-- Less or equal; never so beside a "not a number". -/
def le (x y : Binary64) : Bool := !x.isNaN && !y.isNaN && x.position ≤ y.position

/-- The nearest natural number to the absolute value of a finite number; a half goes to the even neighbour. -/
def roundToNat (x : Binary64) : Nat := roundHalfEven x.units (1 <<< unitPlaces)

end Binary64

end FrameMerge
