import FrameMerge.Json.Numeral

/-!
# Reading values

Octets to values. Fields are kept in the order in which they stand, repeated ones included; `parse` gives the canonical
form. The first fault from the left decides; a string that is not well-formed UTF-8 is found out at its closing quote.
-/

namespace FrameMerge.Json

/-- The blanks of the data format: space, tab, line feed and carriage return. -/
def isSpace (b : UInt8) : Bool := b = 0x20 || b = 0x09 || b = 0x0A || b = 0x0D

def skipSpace (s : Bytes) : Bytes := s.dropWhile isSpace

/-- Arrays and objects open at one time, the outermost included. -/
def maxNesting : Nat := 127

/-! ## Strings -/

/-- The value of a hexadecimal digit. -/
def hexValue? (b : UInt8) : Option Nat :=
  if 48 ≤ b && b ≤ 57 then some (b.toNat - 48)
  else if 97 ≤ b && b ≤ 102 then some (b.toNat - 87)
  else if 65 ≤ b && b ≤ 70 then some (b.toNat - 55)
  else none

/-- The value of four hexadecimal digits. -/
def hexQuad? (a b c d : UInt8) : Option Nat :=
  match hexValue? a, hexValue? b, hexValue? c, hexValue? d with
  | some a, some b, some c, some d => some (((a * 16 + b) * 16 + c) * 16 + d)
  | _, _, _, _ => none

/-- The octet that a one-letter escape stands for. -/
def letterEscape? (b : UInt8) : Option UInt8 :=
  match Char.ofNat b.toNat with
  | '"' => some 0x22
  | '\\' => some 0x5C
  | '/' => some 0x2F
  | 'b' => some 0x08
  | 'f' => some 0x0C
  | 'n' => some 0x0A
  | 'r' => some 0x0D
  | 't' => some 0x09
  | _ => none

def isLeadingSurrogate (n : Nat) : Bool := 0xD800 ≤ n && n < 0xDC00

def isTrailingSurrogate (n : Nat) : Bool := 0xDC00 ≤ n && n < 0xE000

/-- The octets of the character with a given code point. -/
def codePoint (n : Nat) : Bytes := String.utf8EncodeChar (Char.ofNat n)

/-- Reads a string after its opening quote, up to and over its closing quote; `seen` holds the octets so far, last
first. -/
def readString (seen : Bytes) : Bytes → Except Error (Bytes × Bytes)
  | [] => .error .endInString
  | 0x22 :: rest => .ok (seen.reverse, rest)
  | 0x5C :: 0x75 :: a :: b :: c :: d :: rest =>
    match hexQuad? a b c d with
    | none => .error .invalidEscape
    | some n =>
      if isTrailingSurrogate n then .error .loneSurrogate
      else if isLeadingSurrogate n then
        match rest with
        | [] => .error .endInString
        | 0x5C :: [] => .error .endInString
        | 0x5C :: 0x75 :: a :: b :: c :: d :: rest =>
          match hexQuad? a b c d with
          | none => .error .invalidEscape
          | some m =>
            if isTrailingSurrogate m then
              readString ((codePoint (0x10000 + (n - 0xD800) * 0x400 + (m - 0xDC00))).reverse ++ seen) rest
            else .error .loneSurrogate
        | 0x5C :: 0x75 :: _ => .error .endInString
        | _ => .error .unfinishedSurrogate
      else readString ((codePoint n).reverse ++ seen) rest
  | 0x5C :: 0x75 :: _ => .error .endInString
  | 0x5C :: [] => .error .endInString
  | 0x5C :: letter :: rest =>
    match letterEscape? letter with
    | none => .error .invalidEscape
    | some b => readString (b :: seen) rest
  | b :: rest => if b < 0x20 then .error .controlCharacter else readString (b :: seen) rest

/-- Reads the text of a string after its opening quote. -/
def readText (s : Bytes) : Except Error (String × Bytes) :=
  (readString [] s).bind fun (octets, rest) =>
    match Text.ofUtf8? octets with
    | none => .error .invalidCodePoint
    | some text => .ok (text, rest)

/-! ## Values -/

/-- Passes over the given octets. -/
def readWord : Bytes → Bytes → Except Error Bytes
  | [], s => .ok s
  | _ :: _, [] => .error .endInValue
  | w :: word, b :: rest => if b = w then readWord word rest else .error .expectedWord

/-- Reads a number that starts at the first octet. -/
def readNumber (s : Bytes) : Except Error (Number × Bytes) :=
  match readNumeral s with
  | .error .unfinished => .error .endInValue
  | .error .malformed => .error .invalidNumber
  | .ok (numeral, rest) =>
    match numeral.value? with
    | none => .error .numberOutOfRange
    | some n => .ok (n, rest)

mutual

/-- Reads one value; `depth` more arrays and objects may be opened. Every call passes less fuel on. -/
def readValue : Nat → Nat → Bytes → Except Error (Json × Bytes)
  | 0, _, _ => .error .endInValue
  | fuel + 1, depth, s =>
    match skipSpace s with
    | [] => .error .endInValue
    | b :: rest =>
      match Char.ofNat b.toNat with
      | 'n' => (readWord [0x75, 0x6C, 0x6C] rest).map fun rest => (.null, rest)
      | 't' => (readWord [0x72, 0x75, 0x65] rest).map fun rest => (.bool true, rest)
      | 'f' => (readWord [0x61, 0x6C, 0x73, 0x65] rest).map fun rest => (.bool false, rest)
      | '"' => (readText rest).map fun (text, rest) => (.string text, rest)
      | '[' =>
        if depth = 0 then .error .nestingTooDeep
        else match skipSpace rest with
          | [] => .error .endInList
          | 0x5D :: rest => .ok (.array [], rest)
          | rest => readItems fuel (depth - 1) [] rest
      | '\x7b' =>
        if depth = 0 then .error .nestingTooDeep
        else match skipSpace rest with
          | [] => .error .endInObject
          | 0x7D :: rest => .ok (.object [], rest)
          | 0x22 :: rest => readFields fuel (depth - 1) [] rest
          | _ => .error .keyNotString
      | _ =>
        if b = 0x2D || isDigit b then (readNumber (b :: rest)).map fun (n, rest) => (.number n, rest)
        else .error .expectedValue

/-- Reads the items of an array from one item on; `seen` holds the items before it, last first. -/
def readItems : Nat → Nat → List Json → Bytes → Except Error (Json × Bytes)
  | 0, _, _, _ => .error .endInValue
  | fuel + 1, depth, seen, s =>
    match readValue fuel depth s with
    | .error e => .error e
    | .ok (item, rest) =>
      match skipSpace rest with
      | [] => .error .endInList
      | 0x5D :: rest => .ok (.array (item :: seen).reverse, rest)
      | 0x2C :: rest =>
        match skipSpace rest with
        | 0x5D :: _ => .error .trailingComma
        | rest => readItems fuel depth (item :: seen) rest
      | _ => .error .expectedCommaOrBracket

/-- Reads the fields of an object from one field on, the opening quote of its name already passed; `seen` holds the
fields before it, last first. -/
def readFields : Nat → Nat → List (String × Json) → Bytes → Except Error (Json × Bytes)
  | 0, _, _, _ => .error .endInValue
  | fuel + 1, depth, seen, s =>
    match readText s with
    | .error e => .error e
    | .ok (name, rest) =>
      match skipSpace rest with
      | [] => .error .endInObject
      | 0x3A :: rest =>
        match readValue fuel depth rest with
        | .error e => .error e
        | .ok (value, rest) =>
          match skipSpace rest with
          | [] => .error .endInObject
          | 0x7D :: rest => .ok (.object ((name, value) :: seen).reverse, rest)
          | 0x2C :: rest =>
            match skipSpace rest with
            | [] => .error .endInValue
            | 0x22 :: rest => readFields fuel depth ((name, value) :: seen) rest
            | 0x7D :: _ => .error .trailingComma
            | _ => .error .keyNotString
          | _ => .error .expectedCommaOrBrace
      | _ => .error .expectedColon

end

/-- Fuel that no reading of the given octets uses up: an item or field takes at least two octets, a value at least
one. -/
def fuelFor (s : Bytes) : Nat := 2 * s.length + 2

/-- Reads a document: one value and nothing after it. -/
def read (s : Bytes) : Except Error Json :=
  (readValue (fuelFor s) maxNesting s).bind fun (value, rest) =>
    if (skipSpace rest).isEmpty then .ok value else .error .trailingCharacters

/-- Reads a document into its canonical form. -/
def parse (s : Bytes) : Except Error Json := (read s).map normalize

end FrameMerge.Json
