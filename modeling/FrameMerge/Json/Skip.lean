import FrameMerge.Json.Reader

/-!
# Passing over values

Some fields of an object mean nothing to its reader. Their values are passed over: the form is checked, but no number is
computed, no nesting counted and no text decoded. The open brackets stand on an explicit stack.
-/

namespace FrameMerge.Json

/-- An array or object that is open. -/
inductive Bracket
  | array
  | object
  deriving DecidableEq

/-- Passes over a string after its opening quote. -/
def skipString : Bytes → Except Error Bytes
  | [] => .error .endInString
  | 0x22 :: rest => .ok rest
  | 0x5C :: 0x75 :: a :: b :: c :: d :: rest =>
    match hexQuad? a b c d with
    | none => .error .invalidEscape
    | some _ => skipString rest
  | 0x5C :: 0x75 :: _ => .error .endInString
  | 0x5C :: [] => .error .endInString
  | 0x5C :: letter :: rest =>
    match letterEscape? letter with
    | none => .error .invalidEscape
    | some _ => skipString rest
  | b :: rest => if b < 0x20 then .error .controlCharacter else skipString rest

/-- Passes over a number that starts at the first octet. -/
def skipNumber (s : Bytes) : Except Error Bytes :=
  match readNumeral s with
  | .error _ => .error .invalidNumber
  | .ok (_, rest) => .ok rest

/-- Passes over the name of a field and the colon after it. -/
def skipName (s : Bytes) : Except Error Bytes :=
  match skipSpace s with
  | [] => .error .endInObject
  | 0x22 :: rest =>
    (skipString rest).bind fun rest =>
      match skipSpace rest with
      | [] => .error .endInObject
      | 0x3A :: rest => .ok rest
      | _ => .error .expectedColon
  | _ => .error .keyNotString

/-- What follows a value or an opening bracket: closing brackets, then a comma or, directly after an opening
bracket, the first item or name. Answers the brackets still open and what is left. -/
def skipClosings (afterValue : Bool) : List Bracket → Bytes → Except Error (List Bracket × Bytes)
  | [], s => .ok ([], s)
  | bracket :: outer, s =>
    match skipSpace s with
    | [] => .error (match bracket with | .array => .endInList | .object => .endInObject)
    | b :: rest =>
      if b = 0x5D && bracket = .array || b = 0x7D && bracket = .object then skipClosings true outer rest
      else if !afterValue then .ok (bracket :: outer, b :: rest)
      else if b = 0x2C then .ok (bracket :: outer, rest)
      else .error (match bracket with | .array => .expectedCommaOrBracket | .object => .expectedCommaOrBrace)

/-- Passes over one value inside the given brackets and on until all of them are closed. -/
def skipFrom : Nat → List Bracket → Bytes → Except Error Bytes
  | 0, _, _ => .error .endInValue
  | fuel + 1, brackets, s =>
    let goOn (afterValue : Bool) (brackets : List Bracket) (rest : Bytes) : Except Error Bytes :=
      match skipClosings afterValue brackets rest with
      | .error e => .error e
      | .ok ([], rest) => .ok rest
      | .ok (.array :: outer, rest) => skipFrom fuel (.array :: outer) rest
      | .ok (.object :: outer, rest) => (skipName rest).bind (skipFrom fuel (.object :: outer))
    match skipSpace s with
    | [] => .error .endInValue
    | b :: rest =>
      match Char.ofNat b.toNat with
      | 'n' => (readWord [0x75, 0x6C, 0x6C] rest).bind (goOn true brackets)
      | 't' => (readWord [0x72, 0x75, 0x65] rest).bind (goOn true brackets)
      | 'f' => (readWord [0x61, 0x6C, 0x73, 0x65] rest).bind (goOn true brackets)
      | '"' => (skipString rest).bind (goOn true brackets)
      | '[' => goOn false (.array :: brackets) rest
      | '\x7b' => goOn false (.object :: brackets) rest
      | _ =>
        if b = 0x2D || isDigit b then (skipNumber (b :: rest)).bind (goOn true brackets)
        else .error .expectedValue

/-- Passes over one value. -/
def skipValue (s : Bytes) : Except Error Bytes := skipFrom (s.length + 1) [] s

end FrameMerge.Json
