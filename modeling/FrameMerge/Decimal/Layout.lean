import FrameMerge.Decimal.Shortest

/-!
# Written forms of binary numbers

A layout says how the shortest digits of a number are set out: where positional notation ends, what marks a whole number
and which of two equally near decimals is taken. The texts of the logs and the texts of the data format are two layouts
of the same digits.
-/

namespace FrameMerge

/-- The decisions that set the digits of a number out as text. -/
structure Layout where
  /-- The leading places written positionally; every place if there are no bounds. -/
  positional : Option (Int × Int)
  /-- What follows the digits of a whole number in positional notation. -/
  wholeMark : String
  /-- Which of two equally near decimals is taken. -/
  tie : DecimalTie

namespace Layout

/-- Numbers inside sentences: always positional, nothing after a whole number, the greater of two equally near
decimals. -/
def plain : Layout := ⟨none, "", .up⟩

/-- Numbers as data: positional from 10^-5 up to 10^15, a whole number marked by ".0" so that it reads back as a
fraction, the even one of two equally near decimals. -/
def data : Layout := ⟨some (-5, 15), ".0", .even⟩

/-- Digits and exponent in positional notation. -/
def renderPositional (layout : Layout) (d : Decimal) : String :=
  let digits := Nat.toDigits 10 d.coefficient
  if 0 ≤ d.exponent then
    String.ofList (digits ++ List.replicate d.exponent.toNat '0') ++ layout.wholeMark
  else
    let places := (-d.exponent).toNat
    if places < digits.length then
      let whole := digits.length - places
      String.ofList (digits.take whole ++ '.' :: digits.drop whole)
    else
      String.ofList ('0' :: '.' :: List.replicate (places - digits.length) '0' ++ digits)

/-- Digits and exponent in scientific notation: one digit before the point, the exponent always signed. -/
def renderScientific (d : Decimal) : String :=
  let digits := Nat.toDigits 10 d.coefficient
  let mantissa := match digits with
    | [] => []
    | [first] => [first]
    | first :: others => first :: '.' :: others
  let exponent := d.leading
  let sign := if 0 ≤ exponent then "+" else "-"
  String.ofList mantissa ++ "e" ++ sign ++ toString exponent.natAbs

/-- The text of a number. -/
def render (layout : Layout) (x : Binary64) : String :=
  if x.isNaN then "NaN"
  else
    let sign := if x.negative then "-" else ""
    if x.isInfinite then sign ++ "inf"
    else if x.isZero then sign ++ "0" ++ layout.wholeMark
    else
      let d := x.shortest layout.tie
      let positional := match layout.positional with
        | none => true
        | some (low, high) => low ≤ d.leading && d.leading ≤ high
      sign ++ if positional then layout.renderPositional d else renderScientific d

end Layout

/-- The text of a number rounded to a whole number, a half to the even neighbour. -/
def Binary64.renderWhole (x : Binary64) : String :=
  if x.isNaN then "NaN"
  else (if x.negative then "-" else "") ++ if x.isInfinite then "inf" else toString x.roundToNat

end FrameMerge
