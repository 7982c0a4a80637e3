import FrameMerge.Json.Skip
import FrameMerge.Text.Quoted

/-!
# Records

Reading an object of known fields in one pass. Each field has a shape, none is required, a null counts as left out, and
fields of other names are passed over. A record may also be written as the array of its fields in their order; then none
may be missing. A value of another type is reported where it stands, before what follows it is looked at.
-/

namespace FrameMerge.Json

/-- What a field of a record holds. Type names are those of the messages. -/
inductive Shape
  | text
  | natural (typeName : String)
  | real
  | record (typeName : String) (fields : List (String × Shape))

/-- What was read for a field. -/
inductive FieldValue
  | absent
  | text (s : String)
  | natural (n : Nat)
  | real (x : Binary64)
  | record (fields : List (String × FieldValue))

/-- A value found where one of another type is due. -/
inductive Found
  | null
  | bool (b : Bool)
  | number (n : Number)
  | text (s : String)
  | array
  | object

def Found.message : Found → String
  | .null => "null"
  | .bool b => "boolean \x60" ++ (if b then "true" else "false") ++ "\x60"
  | .number (.whole n) => "integer \x60" ++ toString n.value ++ "\x60"
  | .number (.fraction x) => "floating point \x60" ++ Layout.data.render x ++ "\x60"
  | .text s => "string " ++ Text.quoted s
  | .array => "sequence"
  | .object => "map"

/-- Why octets are no record of the given shape. -/
inductive RecordError
  | json (cause : Error)
  | wrongType (found : Found) (expected : String)
  | negative (n : Int) (expected : String)
  | tooFew (length : Nat) (expected : String) (fields : Nat)
  | repeated (name : String)

def RecordError.message : RecordError → String
  | .json cause => cause.message
  | .wrongType found expected => "invalid type: " ++ found.message ++ ", expected " ++ expected
  | .negative n expected => "invalid value: integer \x60" ++ toString n ++ "\x60, expected " ++ expected
  | .tooFew length expected fields =>
    "invalid length " ++ toString length ++ ", expected " ++ expected ++ " with " ++ toString fields ++ " element"
      ++ if fields = 1 then "" else "s"
  | .repeated name => "duplicate field \x60" ++ name ++ "\x60"

def Shape.typeName : Shape → String
  | .text => "a string"
  | .natural typeName => typeName
  | .real => "f64"
  | .record typeName _ => typeName

/-- A fault of the data format as a fault of a record. -/
def liftError {α : Type} : Except Error α → Except RecordError α
  | .error e => .error (.json e)
  | .ok a => .ok a

/-- The octet that starts the next value. -/
def nextOctet (s : Bytes) : Except RecordError (UInt8 × Bytes) :=
  match skipSpace s with
  | [] => .error (.json .endInValue)
  | b :: rest => .ok (b, rest)

/-- Reports a value of another type than expected. The value is read as far as the message shows it. -/
def readMismatch {α : Type} (expected : String) (b : UInt8) (rest : Bytes) : Except RecordError α :=
  let report (found : Found) : Except RecordError α := .error (.wrongType found expected)
  match Char.ofNat b.toNat with
  | 'n' => (liftError (readWord [0x75, 0x6C, 0x6C] rest)).bind fun _ => report .null
  | 't' => (liftError (readWord [0x72, 0x75, 0x65] rest)).bind fun _ => report (.bool true)
  | 'f' => (liftError (readWord [0x61, 0x6C, 0x73, 0x65] rest)).bind fun _ => report (.bool false)
  | '"' => (liftError (readText rest)).bind fun (text, _) => report (.text text)
  | '[' => report .array
  | '\x7b' => report .object
  | _ =>
    if b = 0x2D || isDigit b then (liftError (readNumber (b :: rest))).bind fun (n, _) => report (.number n)
    else .error (.json .expectedValue)

def readTextField (b : UInt8) (rest : Bytes) : Except RecordError (FieldValue × Bytes) :=
  if b = 0x22 then (liftError (readText rest)).map fun (text, rest) => (.text text, rest)
  else readMismatch Shape.text.typeName b rest

/-- Reads a field that must be a natural number. -/
def readNaturalField (typeName : String) (b : UInt8) (rest : Bytes) : Except RecordError (FieldValue × Bytes) :=
  if b = 0x2D || isDigit b then
    (liftError (readNumber (b :: rest))).bind fun (n, rest) =>
      match n with
      | .whole w =>
        if 0 ≤ w.value then .ok (.natural w.value.toNat, rest) else .error (.negative w.value typeName)
      | .fraction x => .error (.wrongType (.number (.fraction x)) typeName)
  else readMismatch typeName b rest

/-- Reads a field that must be a number. Whole numbers are taken as well. -/
def readRealField (b : UInt8) (rest : Bytes) : Except RecordError (FieldValue × Bytes) :=
  if b = 0x2D || isDigit b then
    (liftError (readNumber (b :: rest))).map fun (n, rest) => (.real n.toReal, rest)
  else readMismatch Shape.real.typeName b rest

/-- What ends an array of fields. -/
def endArray (s : Bytes) : Except RecordError Bytes :=
  match skipSpace s with
  | [] => .error (.json .endInList)
  | 0x5D :: rest => .ok rest
  | 0x2C :: rest =>
    match skipSpace rest with
    | 0x5D :: _ => .error (.json .trailingComma)
    | _ => .error (.json .trailingCharacters)
  | _ => .error (.json .trailingCharacters)

/-- Goes on to the next item of an array: none if the array ends here. -/
def nextItem (first : Bool) (s : Bytes) : Except RecordError (Option Bytes) :=
  match skipSpace s with
  | [] => .error (.json .endInList)
  | 0x5D :: _ => .ok none
  | b :: rest =>
    if first then .ok (some (b :: rest))
    else if b = 0x2C then
      match skipSpace rest with
      | [] => .error (.json .endInValue)
      | 0x5D :: _ => .error (.json .trailingComma)
      | rest => .ok (some rest)
    else .error (.json .expectedCommaOrBracket)

/-- Goes on to the next field of an object and over the opening quote of its name; none, and what follows the
object, if the object ends here. -/
def nextField (first : Bool) (s : Bytes) : Except RecordError (Bool × Bytes) :=
  match skipSpace s with
  | [] => .error (.json .endInObject)
  | 0x7D :: rest => .ok (false, rest)
  | b :: rest =>
    if first then if b = 0x22 then .ok (true, rest) else .error (.json .keyNotString)
    else if b = 0x2C then
      match skipSpace rest with
      | [] => .error (.json .endInValue)
      | 0x22 :: rest => .ok (true, rest)
      | 0x7D :: _ => .error (.json .trailingComma)
      | _ => .error (.json .keyNotString)
    else .error (.json .expectedCommaOrBrace)

/-- Passes over the colon after a name. -/
def readColon (s : Bytes) : Except RecordError Bytes :=
  match skipSpace s with
  | [] => .error (.json .endInObject)
  | 0x3A :: rest => .ok rest
  | _ => .error (.json .expectedColon)

mutual

/-- Reads a value of a shape that starts at the given octet. -/
def readShaped : Nat → Shape → UInt8 → Bytes → Except RecordError (FieldValue × Bytes)
  | 0, _, _, _ => .error (.json .endInValue)
  | _ + 1, .text, b, rest => readTextField b rest
  | _ + 1, .natural typeName, b, rest => readNaturalField typeName b rest
  | _ + 1, .real, b, rest => readRealField b rest
  | fuel + 1, .record typeName fields, b, rest =>
    if b = 0x5B then readArrayOfFields fuel typeName fields [] fields rest
    else if b = 0x7B then readFieldsByName fuel fields [] rest
    else readMismatch typeName b rest

/-- Reads a value of a shape, or a null for one left out. -/
def readOptional : Nat → Shape → Bytes → Except RecordError (FieldValue × Bytes)
  | 0, _, _ => .error (.json .endInValue)
  | fuel + 1, shape, s =>
    (nextOctet s).bind fun (b, rest) =>
      if b = 0x6E then (liftError (readWord [0x75, 0x6C, 0x6C] rest)).map fun rest => (.absent, rest)
      else readShaped fuel shape b rest

/-- Reads the fields of a record from an array, in their order; `seen` holds those before, last first. -/
def readArrayOfFields : Nat → String → List (String × Shape) → List (String × FieldValue) →
    List (String × Shape) → Bytes → Except RecordError (FieldValue × Bytes)
  | 0, _, _, _, _, _ => .error (.json .endInValue)
  | _ + 1, _, _, seen, [], s => (endArray s).map fun rest => (.record seen.reverse, rest)
  | fuel + 1, typeName, fields, seen, (name, shape) :: due, s =>
    match nextItem seen.isEmpty s with
    | .error e => .error e
    | .ok none => .error (.tooFew seen.length typeName fields.length)
    | .ok (some rest) =>
      match readOptional fuel shape rest with
      | .error e => .error e
      | .ok (value, rest) => readArrayOfFields fuel typeName fields ((name, value) :: seen) due rest

/-- Reads the fields of a record from an object; `seen` holds those before, none for a field passed over. -/
def readFieldsByName : Nat → List (String × Shape) → List (Option (String × FieldValue)) → Bytes →
    Except RecordError (FieldValue × Bytes)
  | 0, _, _, _ => .error (.json .endInValue)
  | fuel + 1, fields, seen, s =>
    match nextField seen.isEmpty s with
    | .error e => .error e
    | .ok (false, rest) => .ok (.record (seen.filterMap id), rest)
    | .ok (true, rest) =>
      match liftError (readText rest) with
      | .error e => .error e
      | .ok (name, rest) =>
        match fields.lookup name with
        | none =>
          match (readColon rest).bind fun rest => liftError (skipValue rest) with
          | .error e => .error e
          | .ok rest => readFieldsByName fuel fields (none :: seen) rest
        | some shape =>
          if (seen.filterMap id).any (·.1 = name) then .error (.repeated name)
          else
            match (readColon rest).bind fun rest => readOptional fuel shape rest with
            | .error e => .error e
            | .ok (value, rest) => readFieldsByName fuel fields (some (name, value) :: seen) rest

end

/-- Reads a document that is one record. -/
def readRecord (typeName : String) (fields : List (String × Shape)) (s : Bytes) :
    Except RecordError (List (String × FieldValue)) :=
  (nextOctet s).bind fun (b, rest) =>
    (readShaped (4 * s.length + 4) (.record typeName fields) b rest).bind fun (value, rest) =>
      if (skipSpace rest).isEmpty then
        match value with
        | .record fields => .ok fields
        | _ => .ok []
      else .error (.json .trailingCharacters)

end FrameMerge.Json
