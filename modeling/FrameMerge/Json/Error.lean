/-!
# Faults of the data format

Every way in which octets fail to be a value, each with its wording.
-/

namespace FrameMerge.Json

/-- Why octets are not a value. An input has one fault, the first from the left. -/
inductive Error
  | endInValue
  | endInList
  | endInObject
  | endInString
  | expectedColon
  | expectedCommaOrBracket
  | expectedCommaOrBrace
  | expectedWord
  | expectedValue
  | invalidEscape
  | invalidNumber
  | numberOutOfRange
  | invalidCodePoint
  | controlCharacter
  | keyNotString
  | loneSurrogate
  | unfinishedSurrogate
  | trailingComma
  | trailingCharacters
  | nestingTooDeep
  deriving DecidableEq

/-- The wording of a fault, without its place in the input. -/
def Error.message : Error → String
  | .endInValue => "EOF while parsing a value"
  | .endInList => "EOF while parsing a list"
  | .endInObject => "EOF while parsing an object"
  | .endInString => "EOF while parsing a string"
  | .expectedColon => "expected \x60:\x60"
  | .expectedCommaOrBracket => "expected \x60,\x60 or \x60]\x60"
  | .expectedCommaOrBrace => "expected \x60,\x60 or \x60\x7d\x60"
  | .expectedWord => "expected ident"
  | .expectedValue => "expected value"
  | .invalidEscape => "invalid escape"
  | .invalidNumber => "invalid number"
  | .numberOutOfRange => "number out of range"
  | .invalidCodePoint => "invalid unicode code point"
  | .controlCharacter => "control character (\\u0000-\\u001F) found while parsing a string"
  | .keyNotString => "key must be a string"
  | .loneSurrogate => "lone leading surrogate in hex escape"
  | .unfinishedSurrogate => "unexpected end of hex escape"
  | .trailingComma => "trailing comma"
  | .trailingCharacters => "trailing characters"
  | .nestingTooDeep => "recursion limit exceeded"

end FrameMerge.Json
