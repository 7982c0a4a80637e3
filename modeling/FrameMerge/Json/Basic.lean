import FrameMerge.Decimal.Layout
import FrameMerge.Text.Natural
import FrameMerge.Text.Utf8

/-!
# Values of the data format

The tree of values that headers, settings, statistics and requests are made of. Numbers are whole numbers of a fixed
range or binary fractions. A value is *canonical* if the fields of every object in it stand in strictly ascending
order of their names; every value has one canonical form, in which of several fields of one name the last decides.
-/

namespace FrameMerge

/-- A whole number of the data format: what fits sixty-four bits, signed or unsigned. -/
structure WholeNumber where
  value : Int
  inRange : -9223372036854775808 ≤ value ∧ value < 18446744073709551616
  deriving DecidableEq

/-- A natural number of 64 bits is in range. -/
theorem WholeNumber.inRange_of_lt {n : Nat} (h : n < Text.bound64) :
    -9223372036854775808 ≤ (n : Int) ∧ (n : Int) < 18446744073709551616 := by
  rw [Text.bound64] at h
  omega

/-- So is a negative one, if it fits into 64 bits with its sign. -/
theorem WholeNumber.inRange_neg {n : Nat} (h : n ≠ 0 ∧ 2 * n ≤ Text.bound64) :
    -9223372036854775808 ≤ -(n : Int) ∧ -(n : Int) < 18446744073709551616 := by
  rw [Text.bound64] at h
  omega

/-- A number of the data format: a whole one that fits is kept as it is, any other as a binary number. -/
inductive Number
  | whole (n : WholeNumber)
  | fraction (x : Binary64)
  deriving DecidableEq

/-- A number as the nearest binary number. -/
def Number.toReal : Number → Binary64
  | .whole n => { Binary64.ofNat n.value.natAbs with negative := n.value < 0 }
  | .fraction x => x

/-- A value of the data format. -/
inductive Json
  | null
  | bool (b : Bool)
  | number (n : Number)
  | string (s : String)
  | array (items : List Json)
  | object (fields : List (String × Json))

namespace Json

instance : Inhabited Json := ⟨.null⟩

/-- A natural number as a value; beyond the range of whole numbers, the nearest fraction. -/
def nat (n : Nat) : Json :=
  if h : n < Text.bound64 then .number (.whole ⟨n, WholeNumber.inRange_of_lt h⟩)
  else .number (.fraction (Binary64.ofNat n))

/-- A binary number as a value. -/
def real (x : Binary64) : Json := .number (.fraction x)

/-! ## Fields -/

/-- The value of the first field of a name. -/
def find? (name : String) (fields : List (String × Json)) : Option Json := fields.lookup name

/-- Of adjacent fields of one name, the last. -/
def lastOfEach : List (String × Json) → List (String × Json)
  | [] => []
  | [field] => [field]
  | field :: next :: rest =>
    if field.1 = next.1 then lastOfEach (next :: rest) else field :: lastOfEach (next :: rest)

/-- The fields in order of their names, the last of each name. Sorting keeps fields of one name in their order. -/
def sortFields (fields : List (String × Json)) : List (String × Json) :=
  lastOfEach (fields.mergeSort fun a b => a.1 ≤ b.1)

mutual

/-- The canonical form of a value. -/
def normalize : Json → Json
  | .array items => .array (normalizeItems items)
  | .object fields => .object (sortFields (normalizeFields fields))
  | .null => .null
  | .bool b => .bool b
  | .number n => .number n
  | .string s => .string s

/-- The canonical form of each item. -/
def normalizeItems : List Json → List Json
  | [] => []
  | item :: rest => item.normalize :: normalizeItems rest

/-- The canonical form of each field's value. -/
def normalizeFields : List (String × Json) → List (String × Json)
  | [] => []
  | (name, value) :: rest => (name, value.normalize) :: normalizeFields rest

end

mutual

/-- The fields of every object stand in strictly ascending order of their names. -/
def Canonical : Json → Prop
  | .array items => CanonicalItems items
  | .object fields => fields.Pairwise (fun a b => a.1 < b.1) ∧ CanonicalFields fields
  | .null => True
  | .bool _ => True
  | .number _ => True
  | .string _ => True

/-- Every item is canonical. -/
def CanonicalItems : List Json → Prop
  | [] => True
  | item :: rest => item.Canonical ∧ CanonicalItems rest

/-- Every field's value is canonical. -/
def CanonicalFields : List (String × Json) → Prop
  | [] => True
  | (_, value) :: rest => value.Canonical ∧ CanonicalFields rest

end

end Json

end FrameMerge
