import FrameMerge.Json.Basic
import FrameMerge.Json.Error

/-!
# Numerals

The written form of a number and its value. The form is one grammar; what it stands for is a second step, because some
readers only pass over numbers. The value of a fraction is not always the nearest binary number: the leading digits are
collected as long as they fit sixty-four bits, and one multiplication or division by a power of ten follows.
-/

namespace FrameMerge.Json

/-- A number as it is written. -/
structure Numeral where
  negative : Bool
  /-- Digits before the point. -/
  whole : Bytes
  /-- Digits after the point; none if there is no point. -/
  fraction : Bytes
  /-- Sign and digits of the exponent, if there is one. -/
  exponent : Option (Bool × Bytes)

/-- How octets fail to be a numeral: they end too early, or something else stands where a digit is due. -/
inductive Numeral.Fault
  | unfinished
  | malformed
  deriving DecidableEq

def isDigit (b : UInt8) : Bool := 48 ≤ b && b ≤ 57

/-- The value of a digit. -/
def digitValue (b : UInt8) : Nat := b.toNat - 48

/-- At least one digit, and what follows the last. -/
def readDigits (s : Bytes) : Except Numeral.Fault (Bytes × Bytes) :=
  match s with
  | [] => .error .unfinished
  | b :: _ => if isDigit b then .ok (s.takeWhile isDigit, s.dropWhile isDigit) else .error .malformed

/-- An optional exponent. -/
def readExponent : Bytes → Except Numeral.Fault (Option (Bool × Bytes) × Bytes)
  | [] => .ok (none, [])
  | mark :: rest =>
    if mark = 0x65 || mark = 0x45 then
      let (negative, digits) := match rest with
        | 0x2D :: digits => (true, digits)
        | 0x2B :: digits => (false, digits)
        | digits => (false, digits)
      (readDigits digits).map fun (digits, after) => (some (negative, digits), after)
    else .ok (none, mark :: rest)

/-- An optional fraction. -/
def readFraction : Bytes → Except Numeral.Fault (Bytes × Bytes)
  | 0x2E :: rest => readDigits rest
  | rest => .ok ([], rest)

/-- Digits before the point: a leading zero stands alone. -/
def readWhole (s : Bytes) : Except Numeral.Fault (Bytes × Bytes) :=
  (readDigits s).bind fun (digits, rest) =>
    if digits.head? = some 0x30 && digits.length ≠ 1 then .error .malformed else .ok (digits, rest)

/-- Reads a numeral. -/
def readNumeral (s : Bytes) : Except Numeral.Fault (Numeral × Bytes) :=
  let (negative, unsigned) := match s with
    | 0x2D :: rest => (true, rest)
    | rest => (false, rest)
  (readWhole unsigned).bind fun (whole, rest) =>
    (readFraction rest).bind fun (fraction, rest) =>
      (readExponent rest).map fun (exponent, rest) => (⟨negative, whole, fraction, exponent⟩, rest)

/-! ## Values -/

/-- Collects leading digits after a number already collected, as long as they fit sixty-four bits, and counts the
rest. -/
def collect : Nat → Bytes → Nat × Nat
  | value, [] => (value, 0)
  | value, b :: rest =>
    let next := value * 10 + digitValue b
    if next < Text.bound64 then collect next rest else (value, rest.length + 1)

/-- Multiplies by a power of ten: one rounded multiplication or division, after steps of 10^-308 where the power itself
would be out of range. None if the result is infinite. -/
def scale : Nat → Binary64 → Int → Option Binary64
  | 0, x, _ => some x
  | steps + 1, x, exponent =>
    if exponent.natAbs ≤ 308 then
      let power := Binary64.ofDecimal false 1 exponent.natAbs
      if 0 ≤ exponent then
        let product := x.mul power
        if product.isInfinite then none else some product
      else some (x.div power)
    else if x.isZero then some x
    else if 0 ≤ exponent then none
    else scale steps (x.div (Binary64.ofDecimal false 1 308)) (exponent + 308)

/-- The largest exponent that is taken by its value. -/
def maxExponent : Nat := 2147483647

/-- A fraction of the given sign from its collected digits and the power of ten that belongs to them. -/
def fractionValue (negative : Bool) (significand : Nat) (places : Int) (exponent : Option (Bool × Bytes)) :
    Option Binary64 :=
  let signed (x : Binary64) : Binary64 := if negative then x.neg else x
  let scaled (exponent : Int) : Option Binary64 :=
    (scale (exponent.natAbs + 1) (Binary64.ofNat significand) exponent).map signed
  match exponent with
  | none => scaled places
  | some (down, digits) =>
    let size := digits.foldl (fun size b => min (size * 10 + digitValue b) (maxExponent + 1)) 0
    if maxExponent < size then if significand ≠ 0 && !down then none else some (signed Binary64.zero)
    else scaled (if down then places - size else places + size)

/-- The value of a numeral: without point and exponent a whole number if it is in range, otherwise a fraction. A
zero with a minus sign is a fraction, since whole numbers have one zero. None if the number is out of range. -/
def Numeral.value? (n : Numeral) : Option Number :=
  let (whole, surplus) := collect 0 n.whole
  if n.fraction.isEmpty && n.exponent.isNone && surplus = 0 then
    if n.negative then
      if h : whole ≠ 0 ∧ 2 * whole ≤ Text.bound64 then some (.whole ⟨-(whole : Int), WholeNumber.inRange_neg h⟩)
      else some (.fraction (Binary64.ofNat whole).neg)
    else if h : whole < Text.bound64 then some (.whole ⟨whole, WholeNumber.inRange_of_lt h⟩)
    else some (.fraction (Binary64.ofNat whole))
  else
    let (significand, unused) := collect whole n.fraction
    let places : Int := (surplus : Int) - (n.fraction.length - unused : Nat)
    (fractionValue n.negative significand places n.exponent).map .fraction

end FrameMerge.Json
