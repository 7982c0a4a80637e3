/-!
# Octets and text

Octet strings are lists, so that what a reader leaves over is again an octet string. Text becomes octets as UTF-8;
octets become text strictly (only well-formed input) or leniently (each maximal ill-formed piece becomes one
replacement character).
-/

namespace FrameMerge

/-- A string of octets. -/
abbrev Bytes := List UInt8

namespace Text

/-- The UTF-8 form of a text. -/
def utf8 (s : String) : Bytes := s.toUTF8.data.toList

/-- The text whose UTF-8 form is given; none if the octets are not well formed. -/
def ofUtf8? (b : Bytes) : Option String := String.fromUTF8? ⟨b.toArray⟩

theorem utf8_append (a b : String) : utf8 (a ++ b) = utf8 a ++ utf8 b := by
  simp [utf8]

/-- Text survives being written as octets. -/
theorem ofUtf8?_utf8 (s : String) : ofUtf8? (utf8 s) = some s := by
  simp only [ofUtf8?, utf8, String.fromUTF8?]
  exact dif_pos s.isValidUTF8

/-- Stands for a piece of input that is not well formed. -/
def replacement : Char := '\uFFFD'

/-- The range of the second octet of a sequence of several, by its first octet, and how many octets follow the
second; none for an octet that starts no sequence. Narrower ranges keep out overlong forms, surrogates and code
points above the last. -/
def continuation? (lead : UInt8) : Option (UInt8 × UInt8 × Nat) :=
  if lead < 0xC2 then none
  else if lead < 0xE0 then some (0x80, 0xBF, 0)
  else if lead = 0xE0 then some (0xA0, 0xBF, 1)
  else if lead = 0xED then some (0x80, 0x9F, 1)
  else if lead < 0xF0 then some (0x80, 0xBF, 1)
  else if lead = 0xF0 then some (0x90, 0xBF, 2)
  else if lead < 0xF4 then some (0x80, 0xBF, 2)
  else if lead = 0xF4 then some (0x80, 0x8F, 2)
  else none

/-- The value bits of a first octet that announces `following` more octets. -/
def leadBits (lead : UInt8) (following : Nat) : Nat := lead.toNat % (1 <<< (6 - following))

/-- Lenient decoding, in the middle of a character: `value` holds the bits read so far, `low` and `high` bound the next
octet, and `following` octets are due after it. An octet out of bounds ends the ill-formed piece and starts anew. -/
def lenientChars (pending : Option (Nat × UInt8 × UInt8 × Nat)) : Bytes → List Char
  | [] => if pending.isSome then [replacement] else []
  | b :: rest =>
    let fresh (before : List Char) : List Char :=
      if b < 0x80 then before ++ Char.ofNat b.toNat :: lenientChars none rest
      else match continuation? b with
        | none => before ++ replacement :: lenientChars none rest
        | some (low, high, following) =>
          before ++ lenientChars (some (leadBits b (following + 1), low, high, following)) rest
    match pending with
    | none => fresh []
    | some (value, low, high, following) =>
      if low ≤ b && b ≤ high then
        let value := value * 64 + b.toNat % 64
        match following with
        | 0 => Char.ofNat value :: lenientChars none rest
        | following + 1 => lenientChars (some (value, 0x80, 0xBF, following)) rest
      else fresh [replacement]

/-- Decodes octets, each maximal ill-formed piece as one replacement character. -/
def ofUtf8Lenient (b : Bytes) : String := String.ofList (lenientChars none b)

end Text

end FrameMerge
