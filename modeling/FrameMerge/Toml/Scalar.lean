import FrameMerge.Decimal.Reading
import FrameMerge.Toml.Table

/-!
# Scalars of a settings document

Strings, numbers, truth values and times, read from the front of a list of characters. Each reader answers what it
read and what follows, or nothing if no such scalar stands there.
-/

namespace FrameMerge.Toml

/-- A reader answers what it read and what follows. -/
abbrev Read (α : Type) := Option (α × List Char)

/-- Blanks inside a line. -/
def isBlank (c : Char) : Bool := c = ' ' || c = '\t'

def skipBlanks (s : List Char) : List Char := s.dropWhile isBlank

/-- Passes over the end of a line: a line feed, with or without a carriage return before it. -/
def newline? : List Char → Option (List Char)
  | '\n' :: rest => some rest
  | '\r' :: '\n' :: rest => some rest
  | _ => none

/-- Characters that may stand in comments and strings: the tab and everything but controls. -/
def isPlain (c : Char) : Bool := c = '\t' || (0x20 ≤ c.toNat && c.toNat ≠ 0x7F)

/-- Passes over given characters. -/
def literal? (word : List Char) (s : List Char) : Option (List Char) :=
  if word.isPrefixOf s then some (s.drop word.length) else none

/-! ## Strings -/

def isHex (c : Char) : Bool := c.isDigit || ('a' ≤ c && c ≤ 'f') || ('A' ≤ c && c ≤ 'F')

/-- The value of digits in any base up to sixteen. -/
def digitsValue (base : Nat) (digits : List Char) : Nat :=
  digits.foldl (fun value c =>
    value * base + (if c.isDigit then c.toNat - '0'.toNat else c.toLower.toNat - 'a'.toNat + 10)) 0

/-- The character of a code point that is written in exactly `count` hexadecimal digits. -/
def readCodePoint (count : Nat) (s : List Char) : Read Char :=
  let digits := s.take count
  let value := digitsValue 16 digits
  if digits.length = count && digits.all isHex && value.isValidChar then some (Char.ofNat value, s.drop count) else none

/-- The character of an escape, after its backslash. -/
def readEscape : List Char → Read Char
  | 'b' :: rest => some ('\x08', rest)
  | 't' :: rest => some ('\t', rest)
  | 'n' :: rest => some ('\n', rest)
  | 'f' :: rest => some ('\x0c', rest)
  | 'r' :: rest => some ('\r', rest)
  | '"' :: rest => some ('"', rest)
  | '\\' :: rest => some ('\\', rest)
  | 'u' :: rest => readCodePoint 4 rest
  | 'U' :: rest => readCodePoint 8 rest
  | _ => none

/-- The text of a string on one line, after its opening quote; `seen` holds the characters so far, last first. -/
def readBasic : Nat → List Char → List Char → Read String
  | 0, _, _ => none
  | _, _, [] => none
  | _ + 1, seen, '"' :: rest => some (String.ofList seen.reverse, rest)
  | fuel + 1, seen, '\\' :: rest => (readEscape rest).bind fun (c, rest) => readBasic fuel (c :: seen) rest
  | fuel + 1, seen, c :: rest => if isPlain c then readBasic fuel (c :: seen) rest else none

/-- The text of a string without escapes on one line, after its opening apostrophe. -/
def readVerbatim (s : List Char) : Read String :=
  let text := s.takeWhile fun c => isPlain c && c ≠ '\''
  (literal? ['\''] (s.dropWhile fun c => isPlain c && c ≠ '\'')).map fun rest => (String.ofList text, rest)

/-- Passes over blanks and ends of lines. -/
def skipLines : Nat → List Char → List Char
  | 0, s => s
  | fuel + 1, s =>
    match s with
    | c :: rest =>
      if isBlank c then skipLines fuel rest
      else match newline? s with
        | some rest => skipLines fuel rest
        | none => s
    | [] => s

/-- The end of a string of several lines: three quotes, or more of which the first one or two belong to the text. -/
def readClosing (quote : Char) (seen : List Char) (s : List Char) : Read String :=
  let quotes := (s.takeWhile (· = quote)).length
  if 3 ≤ quotes then
    let inner := min (quotes - 3) 2
    some (String.ofList (List.replicate inner quote ++ seen).reverse, s.drop (inner + 3))
  else none

/-- The text of a string of several lines. Unless it is verbatim, a backslash at the end of a line takes the blanks
and ends of lines after it along. -/
def readLong (quote : Char) (verbatim : Bool) : Nat → List Char → List Char → Read String
  | 0, _, _ => none
  | fuel + 1, seen, s =>
    match s with
    | [] => none
    | c :: rest =>
      if c = quote then
        (readClosing quote seen s).orElse fun _ => readLong quote verbatim fuel (c :: seen) rest
      else if c = '\\' && !verbatim then
        match newline? (skipBlanks rest) with
        | some rest => readLong quote verbatim fuel seen (skipLines rest.length rest)
        | none => (readEscape rest).bind fun (c, rest) => readLong quote verbatim fuel (c :: seen) rest
      else match newline? s with
        | some rest => readLong quote verbatim fuel ('\n' :: seen) rest
        | none => if isPlain c then readLong quote verbatim fuel (c :: seen) rest else none

/-- A string of several lines, after its opening quotes; an end of line right after them is no part of it. -/
def readLongFrom (quote : Char) (verbatim : Bool) (s : List Char) : Read String :=
  let body := (newline? s).getD s
  readLong quote verbatim (body.length + 1) [] body

/-- A string on one line. -/
def readLine : List Char → Read String
  | '"' :: rest => readBasic rest.length [] rest
  | '\'' :: rest => readVerbatim rest
  | _ => none

/-- A string of any kind. -/
def readString : List Char → Read String
  | '"' :: '"' :: '"' :: rest => readLongFrom '"' false rest
  | '\'' :: '\'' :: '\'' :: rest => readLongFrom '\'' true rest
  | s => readLine s

/-! ## Numbers -/

/-- Digits with single underscores between them; answers them without the underscores. -/
def readDigitRun (isDigit : Char → Bool) : List Char → Read (List Char)
  | [] => none
  | [c] => if isDigit c then some ([c], []) else none
  | c :: d :: rest =>
    if !isDigit c then none
    else if d = '_' then (readDigitRun isDigit rest).map fun (digits, after) => (c :: digits, after)
    else if isDigit d then (readDigitRun isDigit (d :: rest)).map fun (digits, after) => (c :: digits, after)
    else some ([c], d :: rest)

/-- An optional sign. -/
def readSign : List Char → Option Char × List Char
  | '+' :: rest => (some '+', rest)
  | '-' :: rest => (some '-', rest)
  | rest => (none, rest)

/-- The digits of a whole number: a zero stands alone. -/
def readWholeDigits : List Char → Read (List Char)
  | '0' :: rest => some (['0'], rest)
  | s => readDigitRun Char.isDigit s

/-- An exponent with its mark, as it is read. -/
def readExponent : List Char → Read (List Char)
  | mark :: rest =>
    if mark = 'e' || mark = 'E' then
      let (sign, rest) := readSign rest
      (readDigitRun Char.isDigit rest).map fun (digits, rest) => (mark :: sign.toList ++ digits, rest)
    else none
  | [] => none

/-- A point with the digits after it. -/
def readPoint : List Char → Read (List Char)
  | '.' :: rest => (readDigitRun Char.isDigit rest).map fun (digits, rest) => ('.' :: digits, rest)
  | _ => none

/-- What makes a number a fraction: an exponent, or a point and digits with or without an exponent. -/
def readFractionPart (s : List Char) : Read (List Char) :=
  (readExponent s).orElse fun _ =>
    (readPoint s).map fun (digits, rest) =>
      match readExponent rest with
      | some (exponent, rest) => (digits ++ exponent, rest)
      | none => (digits, rest)

/-- Infinity or "not a number", by name. -/
def readNamed (negative : Bool) (s : List Char) : Read Binary64 :=
  match literal? ['i', 'n', 'f'] s with
  | some rest => some (.infinity negative, rest)
  | none => (literal? ['n', 'a', 'n'] s).map fun rest => (.nan, rest)

/-- A fraction. One too great for a finite number is refused if it is positive. -/
def readReal (s : List Char) : Read Binary64 :=
  let (sign, unsigned) := readSign s
  match (readWholeDigits unsigned).bind fun (whole, rest) =>
      (readFractionPart rest).map fun (part, rest) => (whole ++ part, rest) with
  | some (text, rest) =>
    (Decimal.read? (sign.toList ++ text)).bind fun x => if x = .infinity false then none else some (x, rest)
  | none => readNamed (sign = some '-') unsigned

/-- Whole numbers lie below this bound, and not below its negative. -/
def integerBound : Nat := 1 <<< 63

/-- Digits of a base after its mark. -/
def readBased (base : Nat) (isDigit : Char → Bool) (s : List Char) : Read Int :=
  (readDigitRun isDigit s).bind fun (digits, rest) =>
    let value := digitsValue base digits
    if value < integerBound then some (value, rest) else none

/-- A whole number of sixty-four bits: signed in decimal, or unsigned in base sixteen, eight or two. -/
def readInteger (s : List Char) : Read Int :=
  match s with
  | '0' :: 'x' :: rest => readBased 16 isHex rest
  | '0' :: 'o' :: rest => readBased 8 (fun c => '0' ≤ c && c ≤ '7') rest
  | '0' :: 'b' :: rest => readBased 2 (fun c => c = '0' || c = '1') rest
  | _ =>
    let (sign, unsigned) := readSign s
    (readWholeDigits unsigned).bind fun (digits, rest) =>
      let value : Int := digitsValue 10 digits
      if sign = some '-' then if value ≤ integerBound then some (-value, rest) else none
      else if value < integerBound then some (value, rest) else none

/-! ## Times -/

/-- A number of exactly `count` digits in a range. -/
def readFixed (count low high : Nat) (s : List Char) : Read Nat :=
  let digits := s.take count
  let value := digitsValue 10 digits
  if digits.length = count && digits.all Char.isDigit && low ≤ value && value ≤ high then some (value, s.drop count)
  else none

def isLeapYear (year : Nat) : Bool := year % 4 = 0 && (year % 100 ≠ 0 || year % 400 = 0)

def daysOf (year month : Nat) : Nat :=
  if month = 2 then if isLeapYear year then 29 else 28
  else if [4, 6, 9, 11].contains month then 30 else 31

/-- A day: year, month and day of the month. -/
def passDay (s : List Char) : Option (List Char) := do
  let (year, s) ← readFixed 4 0 9999 s
  let s ← literal? ['-'] s
  let (month, s) ← readFixed 2 1 12 s
  let s ← literal? ['-'] s
  let (_, s) ← readFixed 2 1 (daysOf year month) s
  return s

/-- An optional fraction of a second. -/
def passFraction (s : List Char) : Option (List Char) :=
  match s with
  | '.' :: rest => if (rest.takeWhile Char.isDigit).isEmpty then none else some (rest.dropWhile Char.isDigit)
  | _ => some s

/-- A time of day: hour, minute and second. -/
def passClock (s : List Char) : Option (List Char) := do
  let (_, s) ← readFixed 2 0 23 s
  let s ← literal? [':'] s
  let (_, s) ← readFixed 2 0 59 s
  let s ← literal? [':'] s
  let (_, s) ← readFixed 2 0 60 s
  passFraction s

/-- An optional offset from universal time. -/
def passOffset (s : List Char) : Option (List Char) :=
  match s with
  | [] => some []
  | c :: rest =>
    if c = 'Z' || c = 'z' then some rest
    else if c = '+' || c = '-' then do
      let (_, rest) ← readFixed 2 0 23 rest
      let rest ← literal? [':'] rest
      let (_, rest) ← readFixed 2 0 59 rest
      return rest
    else some s

/-- A day, a time of day, or both with an optional offset. -/
def passTime (s : List Char) : Option (List Char) :=
  match passDay s with
  | none => passClock s
  | some rest =>
    match rest with
    | c :: clock =>
      if c = 'T' || c = 't' || c = ' ' then
        match passClock clock with
        | some rest => passOffset rest
        | none => some rest
      else some rest
    | [] => some []

/-- A time or a number. -/
def readNumeric (s : List Char) : Read Value :=
  match passTime s with
  | some rest => some (.time, rest)
  | none =>
    match readReal s with
    | some (x, rest) => some (.real x, rest)
    | none => (readInteger s).map fun (n, rest) => (.integer n, rest)

/-- A truth value, infinity or "not a number", by name. -/
def readWord (s : List Char) : Read Value :=
  match literal? ['t', 'r', 'u', 'e'] s with
  | some rest => some (.bool true, rest)
  | none =>
    match literal? ['f', 'a', 'l', 's', 'e'] s with
    | some rest => some (.bool false, rest)
    | none => (readNamed false s).map fun (x, rest) => (.real x, rest)

/-- Any scalar. -/
def readScalar (s : List Char) : Read Value :=
  match s with
  | [] => none
  | c :: _ =>
    if c = '"' || c = '\'' then (readString s).map fun (text, rest) => (.string text, rest)
    else if c = '+' || c = '-' || c.isDigit then readNumeric s
    else readWord s

end FrameMerge.Toml
