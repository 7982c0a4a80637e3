import FrameMerge.Text.Utf8
import Mathlib.Data.List.Basic

/-!
# Characters as octets

Text is written character by character (`Text.utf8_ofList`). The characters that the formats of this library give a meaning
to take one octet each; all others are written in octets that none of those characters has (`Text.le_of_mem_utf8EncodeChar`),
so that a reader of octets never takes a piece of a character for a quote or a digit.
-/

namespace FrameMerge.Text

/-- The octets of characters. -/
def encodeChars (s : List Char) : Bytes := s.flatMap String.utf8EncodeChar

/-- Text is written character by character. -/
theorem utf8_ofList (s : List Char) : utf8 (String.ofList s) = encodeChars s := by
  show (String.ofList s).toByteArray.data.toList = encodeChars s
  rw [String.toByteArray_ofList, List.utf8Encode, List.data_toByteArray, List.toList_toArray, encodeChars]

/-- The same of a text whose characters are not at hand. -/
theorem utf8_eq (s : String) : utf8 s = encodeChars s.toList := by
  rw [← utf8_ofList, String.ofList_toList]

@[simp] theorem encodeChars_nil : encodeChars [] = [] := rfl

@[simp] theorem encodeChars_cons (c : Char) (s : List Char) :
    encodeChars (c :: s) = String.utf8EncodeChar c ++ encodeChars s := rfl

/-- Texts in a row are written in a row. -/
@[simp] theorem encodeChars_append (s t : List Char) : encodeChars (s ++ t) = encodeChars s ++ encodeChars t :=
  List.flatMap_append

/-- Every character takes an octet. -/
theorem length_le_encodeChars (s : List Char) : s.length ≤ (encodeChars s).length := by
  induction s with
  | nil => exact Nat.le_refl _
  | cons c s ih =>
    have hsome := List.length_pos_iff.2 (@String.utf8EncodeChar_ne_nil c)
    rw [encodeChars_cons, List.length_cons, List.length_append]
    omega

/-! ## One octet or several -/

/-- A code point below 128 fits in an octet. -/
theorem toNat_toUInt8 {c : Char} (h : c.toNat < 128) : c.toNat.toUInt8.toNat = c.toNat := by
  rw [Nat.toUInt8, UInt8.toNat_ofNat']
  omega

/-- A character below 128 is written as its code point. -/
theorem utf8EncodeChar_of_lt {c : Char} (h : c.toNat < 128) : String.utf8EncodeChar c = [c.toNat.toUInt8] := by
  have hsize : c.utf8Size = 1 := by
    have hval : c.val ≤ 127 := UInt32.le_iff_toNat_le.2 (Nat.le_of_lt_succ h)
    simp [Char.utf8Size, hval]
  rw [String.utf8EncodeChar_eq_singleton hsize]
  rfl

/-- Plain text is written as its code points. -/
theorem encodeChars_of_lt {s : List Char} (h : ∀ c ∈ s, c.toNat < 128) :
    encodeChars s = s.map fun c => c.toNat.toUInt8 := by
  induction s with
  | nil => rfl
  | cons c s ih =>
    obtain ⟨hc, hs⟩ := List.forall_mem_cons.1 h
    rw [encodeChars_cons, utf8EncodeChar_of_lt hc, ih hs]
    rfl

/-- The highest bit of a number that fits in an octet is kept there. -/
theorem le_toNat_ofNat {n : Nat} (h : 128 ≤ n) (hn : n < 256) : 128 ≤ (UInt8.ofNat n).toNat := by
  rwa [UInt8.toNat_ofNat', Nat.mod_eq_of_lt hn]

/-- The octets of a character that takes several are greater than those of all that take one. -/
theorem le_of_mem_utf8EncodeChar {c : Char} (h : 128 ≤ c.toNat) {b : UInt8} (hb : b ∈ String.utf8EncodeChar c) :
    128 ≤ b.toNat := by
  have hlarge : ¬c.val.toNat ≤ 127 := Nat.not_le.2 h
  unfold String.utf8EncodeChar at hb
  simp only [hlarge, if_false] at hb
  split at hb
  · simp only [List.mem_cons, List.not_mem_nil, or_false] at hb
    rcases hb with rfl | rfl
    · exact le_toNat_ofNat (by omega) (by omega)
    · exact le_toNat_ofNat (by omega) (by omega)
  · split at hb
    · simp only [List.mem_cons, List.not_mem_nil, or_false] at hb
      rcases hb with rfl | rfl | rfl <;> exact le_toNat_ofNat (by omega) (by omega)
    · simp only [List.mem_cons, List.not_mem_nil, or_false] at hb
      rcases hb with rfl | rfl | rfl | rfl <;> exact le_toNat_ofNat (by omega) (by omega)

/-- An octet that a character can take alone is there only for that character. -/
theorem exists_of_mem_encodeChars {s : List Char} {b : UInt8} (hsmall : b.toNat < 128) (h : b ∈ encodeChars s) :
    ∃ c ∈ s, c.toNat = b.toNat := by
  obtain ⟨c, hc, hb⟩ := List.mem_flatMap.1 h
  refine ⟨c, hc, ?_⟩
  by_cases hone : c.toNat < 128
  · rw [utf8EncodeChar_of_lt hone, List.mem_singleton] at hb
    rw [hb, toNat_toUInt8 hone]
  · exact absurd (le_of_mem_utf8EncodeChar (Nat.not_lt.1 hone) hb) (Nat.not_le.2 hsmall)

/-- Only a carriage return is written with its octet. -/
theorem return_notMem_encodeChars {s : List Char} (h : '\r' ∉ s) : 13 ∉ encodeChars s := by
  intro hmem
  obtain ⟨c, hc, hcode⟩ := exists_of_mem_encodeChars (by decide) hmem
  obtain rfl : c = '\r' := Char.toNat_inj.1 hcode
  exact h hc

/-- The code points of digits. -/
theorem isDigit_bounds {c : Char} (h : c.isDigit) : 48 ≤ c.toNat ∧ c.toNat ≤ 57 := by
  simpa [Char.isDigit, UInt32.le_iff_toNat_le] using h

end FrameMerge.Text
