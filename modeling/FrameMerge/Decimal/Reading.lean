import FrameMerge.Binary64
import FrameMerge.Text.Natural

/-!
# Reading decimal numbers

The text of a number as a person writes it in a setting: a sign, digits with at most one point among or around them, an
exponent; or one of the names of infinity and of "not a number". The value is rounded once, from the exact decimal.
-/

namespace FrameMerge

namespace Decimal

/-- The value of a run of digits, read after a number already read. -/
def digitsValue (start : Nat) (digits : List Char) : Nat :=
  digits.foldl (fun value c => value * 10 + (c.toNat - '0'.toNat)) start

/-- A run of digits and what follows it. -/
def spanDigits (s : List Char) : List Char × List Char := (s.takeWhile Char.isDigit, s.dropWhile Char.isDigit)

/-- The value of an exponent, cut off where every number has long been zero or infinite, so that the power of ten stays
small. -/
def boundedExponent (negative : Bool) (digits : List Char) : Int :=
  let size := if 7 < (digits.dropWhile (· = '0')).length then 10000000 else digitsValue 0 digits
  if negative then -(size : Int) else size

/-- The binary number nearest to `coefficient * 10^exponent`. A coefficient whose leading digit is far outside the
range of the binary numbers is settled without computing the power. -/
def nearest (negative : Bool) (coefficient : Nat) (exponent : Int) : Binary64 :=
  let top := exponent + (Nat.toDigits 10 coefficient).length
  if coefficient = 0 || top < -400 then Binary64.ofMagnitude negative 0
  else if 400 < top then Binary64.infinity negative
  else Binary64.ofDecimal negative coefficient exponent

/-- An optional exponent up to the end of the text. -/
def readExponent? : List Char → Option Int
  | [] => some 0
  | mark :: rest =>
    if mark = 'e' || mark = 'E' then
      let (negative, digits) := match rest with
        | '-' :: digits => (true, digits)
        | '+' :: digits => (false, digits)
        | digits => (false, digits)
      if digits.isEmpty || !digits.all Char.isDigit then none else some (boundedExponent negative digits)
    else none

/-- A number without its sign: digits with at most one point and an optional exponent. There is at least one digit
before or after the point. -/
def readUnsigned? (negative : Bool) (s : List Char) : Option Binary64 :=
  let (whole, afterWhole) := spanDigits s
  let (fraction, afterFraction) := match afterWhole with
    | '.' :: rest => spanDigits rest
    | rest => ([], rest)
  if whole.isEmpty && fraction.isEmpty then none
  else (readExponent? afterFraction).map fun exponent =>
    nearest negative (digitsValue (digitsValue 0 whole) fraction) (exponent - fraction.length)

/-- The names of the values that have no digits, in small letters. -/
def named? (negative : Bool) (s : List Char) : Option Binary64 :=
  let name := String.ofList (s.map Char.toLower)
  if name = "inf" || name = "infinity" then some (.infinity negative)
  else if name = "nan" then some .nan
  else none

/-- Reads a number; none if the text is no number. -/
def read? (s : List Char) : Option Binary64 :=
  let (negative, rest) := match s with
    | '-' :: rest => (true, rest)
    | '+' :: rest => (false, rest)
    | rest => (false, rest)
  (named? negative rest).orElse fun _ => readUnsigned? negative rest

end Decimal

end FrameMerge
