import FrameMerge.Json.Canonical
import FrameMerge.Json.Printer
import FrameMerge.Json.Reader
import FrameMerge.Key

/-!
# Frame headers

A header is an object in canonical form with a frame number among its fields. The number is kept beside the fields
it came from; the type holds both together, so a header can neither lack its number nor disagree with it.
-/

namespace FrameMerge

/-- Why a value or a string of octets is no header. -/
inductive HeaderError
  | notJson (fault : Json.Error)
  | notObject
  | missingNumber
  | numberNotUnsigned
  deriving DecidableEq

def HeaderError.message : HeaderError → String
  | .notJson fault => "header is not valid JSON: " ++ fault.message
  | .notObject => "header must be a JSON object"
  | .missingNumber => "header is missing 'frame_num'"
  | .numberNotUnsigned => "'frame_num' must be an unsigned integer"

/-- The name of the field that holds the frame number. -/
def frameNumberField : String := "frame_num"

structure Header where
  fields : List (String × Json)
  frameNumber : Nat
  canonical : Json.Canonical (.object fields)
  numbered : ∃ n : WholeNumber,
    Json.find? frameNumberField fields = some (.number (.whole n)) ∧ n.value = frameNumber

namespace Header

/-- The header that a value in canonical form makes. -/
def ofCanonical (v : Json) (h : v.Canonical) : Except HeaderError Header :=
  match v with
  | .object fields =>
    match hfind : Json.find? frameNumberField fields with
    | none => .error .missingNumber
    | some (.number (.whole n)) =>
      if hn : 0 ≤ n.value then .ok ⟨fields, n.value.toNat, h, n, hfind, (Int.toNat_of_nonneg hn).symm⟩
      else .error .numberNotUnsigned
    | some _ => .error .numberNotUnsigned
  | _ => .error .notObject

/-- The header that a value makes. -/
def ofValue (v : Json) : Except HeaderError Header := ofCanonical v.normalize (Json.normalize_canonical v)

/-- Reads a header from octets. -/
def decode (raw : Bytes) : Except HeaderError Header :=
  match Json.read raw with
  | .error fault => .error (.notJson fault)
  | .ok v => ofValue v

/-- The fields as a value. -/
def toJson (h : Header) : Json := .object h.fields

/-- The value of a field. -/
def find? (h : Header) (name : String) : Option Json := Json.find? name h.fields

/-- The octets of a header: the compact text of its fields. -/
def encode (h : Header) : Bytes := h.toJson.encode

end Header

/-- A frame: its place in the stream, its header and its data. -/
structure Frame where
  key : Key
  header : Header
  payload : Bytes

end FrameMerge
