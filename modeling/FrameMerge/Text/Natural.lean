/-!
# Natural numbers in text

Reading an unsigned number of bounded size: an optional plus sign and decimal digits. The first offence from the left is
reported, be it a character that is no digit or the digit at which the number outgrows its bound.
-/

namespace FrameMerge.Text

/-- Why a text is no natural number within a bound. -/
inductive NaturalError
  | empty
  | invalidDigit
  | tooLarge
  deriving DecidableEq

def NaturalError.message : NaturalError → String
  | .empty => "cannot parse integer from empty string"
  | .invalidDigit => "invalid digit found in string"
  | .tooLarge => "number too large to fit in target type"

/-- The value of a decimal digit. -/
def digit? (c : Char) : Option Nat := if c.isDigit then some (c.toNat - '0'.toNat) else none

/-- Reads digits after a number already read. -/
def readDigits (bound : Nat) : Nat → List Char → Except NaturalError Nat
  | value, [] => .ok value
  | value, c :: rest =>
    match digit? c with
    | none => .error .invalidDigit
    | some d =>
      let next := value * 10 + d
      if next < bound then readDigits bound next rest else .error .tooLarge

/-- Reads a number below `bound`. A sign alone is no number. -/
def readNatural (bound : Nat) : List Char → Except NaturalError Nat
  | [] => .error .empty
  | [c] => readDigits bound 0 [c]
  | '+' :: rest => readDigits bound 0 rest
  | text => readDigits bound 0 text

/-- Numbers of sixteen bits lie below this bound: the ports. -/
def bound16 : Nat := 65536

/-- Numbers of thirty-two bits lie below this bound: the scopes of addresses. -/
def bound32 : Nat := 4294967296

/-- Numbers of sixty-four bits lie below this bound: counts, lengths and intervals. -/
def bound64 : Nat := 18446744073709551616

end FrameMerge.Text
