import FrameMerge.Json.Basic

/-!
# Printing values

The compact text of a value: no blanks, fields in the order in which they stand. Inside strings only the quote, the
backslash and the control characters are escaped, the latter by a letter where there is one.
-/

namespace FrameMerge.Json

/-- A hexadecimal digit, in small letters. -/
def hexDigit (n : Nat) : Char := if n < 10 then Char.ofNat (48 + n) else Char.ofNat (87 + n)

/-- A character inside a string. -/
def escape (c : Char) : List Char :=
  match c with
  | '"' => ['\\', '"']
  | '\\' => ['\\', '\\']
  | '\n' => ['\\', 'n']
  | '\r' => ['\\', 'r']
  | '\t' => ['\\', 't']
  | '\x08' => ['\\', 'b']
  | '\x0c' => ['\\', 'f']
  | c => if c.toNat < 0x20 then ['\\', 'u', '0', '0', hexDigit (c.toNat / 16), hexDigit (c.toNat % 16)] else [c]

/-- A string in quotes. -/
def quoted (s : String) : List Char := '"' :: s.toList.flatMap escape ++ ['"']

/-- A number: whole numbers in decimal digits, fractions by their shortest digits. What is no finite number has no
digits, and stands as null. -/
def numberChars : Number → List Char
  | .whole n => (if n.value < 0 then ['-'] else []) ++ Nat.toDigits 10 n.value.natAbs
  | .fraction x => if x.isFinite then (Layout.data.render x).toList else ['n', 'u', 'l', 'l']

mutual

/-- The characters of a value. -/
def chars : Json → List Char
  | .null => ['n', 'u', 'l', 'l']
  | .bool true => ['t', 'r', 'u', 'e']
  | .bool false => ['f', 'a', 'l', 's', 'e']
  | .number n => numberChars n
  | .string s => quoted s
  | .array items => '[' :: itemChars items ++ [']']
  | .object fields => '\x7b' :: fieldChars fields ++ ['\x7d']

/-- The items, a comma before each but the first. -/
def itemChars : List Json → List Char
  | [] => []
  | item :: rest => chars item ++ moreItemChars rest

/-- The items after the first. -/
def moreItemChars : List Json → List Char
  | [] => []
  | item :: rest => ',' :: chars item ++ moreItemChars rest

/-- The fields, a comma before each but the first. -/
def fieldChars : List (String × Json) → List Char
  | [] => []
  | (name, value) :: rest => quoted name ++ ':' :: chars value ++ moreFieldChars rest

/-- The fields after the first. -/
def moreFieldChars : List (String × Json) → List Char
  | [] => []
  | (name, value) :: rest => ',' :: quoted name ++ ':' :: chars value ++ moreFieldChars rest

end

/-- The text of a value. -/
def text (v : Json) : String := String.ofList v.chars

/-- The octets of a value. -/
def encode (v : Json) : Bytes := Text.utf8 v.text

end FrameMerge.Json
