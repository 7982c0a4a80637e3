import FrameMerge.Proofs.Characters

/-!
# Lenient decoding leaves text alone

Octets that are the form of characters are decoded to these characters, whatever follows them
(`Text.lenientChars_encodeChars`): leniency is for octets that are the form of none. The ranges that the decoder sets for the
octet after the first are just wide enough: they keep out longer forms of small code points and the code points that are no
characters, and no form of a character has an octet outside of them.
-/

namespace FrameMerge.Text

/-! ## Octet by octet -/

section Octets

variable {lead low high b : UInt8} {following value : Nat}

/-- An octet without its highest bit is a character of its own. -/
theorem lenientChars_small (h : b < 0x80) (rest : Bytes) :
    lenientChars none (b :: rest) = Char.ofNat b.toNat :: lenientChars none rest := by
  rw [lenientChars]
  simp only [h, if_true, List.nil_append]

/-- The first octet of several says how many are due and bounds the next. -/
theorem lenientChars_lead (h : continuation? lead = some (low, high, following)) (rest : Bytes) :
    lenientChars none (lead :: rest) =
      lenientChars (some (leadBits lead (following + 1), low, high, following)) rest := by
  have hlarge : ¬lead < 0x80 := by
    intro hsmall
    have hnone : lead < 0xC2 := UInt8.lt_trans hsmall (by decide)
    rw [continuation?, if_pos hnone] at h
    cases h
  rw [lenientChars]
  simp only [hlarge, if_false, h, List.nil_append]

/-- An octet within its bounds adds six bits. -/
theorem lenientChars_more (hlow : low ≤ b) (hhigh : b ≤ high) (rest : Bytes) :
    lenientChars (some (value, low, high, following + 1)) (b :: rest) =
      lenientChars (some (value * 64 + b.toNat % 64, 0x80, 0xBF, following)) rest := by
  rw [lenientChars]
  simp only [hlow, hhigh, decide_true, Bool.and_self, if_true]

/-- The last octet completes a character. -/
theorem lenientChars_last (hlow : low ≤ b) (hhigh : b ≤ high) (rest : Bytes) :
    lenientChars (some (value, low, high, 0)) (b :: rest) =
      Char.ofNat (value * 64 + b.toNat % 64) :: lenientChars none rest := by
  rw [lenientChars]
  simp only [hlow, hhigh, decide_true, Bool.and_self, if_true]

end Octets

/-! ## Character by character -/

/-- A first octet of two carries five bits; below 2 they would be a longer form of one octet. -/
theorem continuation?_two {n : Nat} (hhigh : n < 32) (hlow : 2 ≤ n) :
    continuation? (UInt8.ofNat (n + 192)) = some (0x80, 0xBF, 0) ∧ leadBits (UInt8.ofNat (n + 192)) 1 = n := by
  revert n
  decide

/-- A first octet of three carries four bits. The bounds on the octet after it keep out longer forms, if the bits are 0,
and surrogates, if they are 13. -/
theorem continuation?_three {n : Nat} (h : n < 16) :
    continuation? (UInt8.ofNat (n + 224)) =
        some (if n = 0 then 0xA0 else 0x80, if n = 13 then 0x9F else 0xBF, 1) ∧
      leadBits (UInt8.ofNat (n + 224)) 2 = n := by
  revert n
  decide

/-- A first octet of four carries three bits, which are at most 4. The bounds on the octet after it keep out longer
forms and what lies beyond the last code point. -/
theorem continuation?_four {n : Nat} (h : n < 5) :
    continuation? (UInt8.ofNat (n + 240)) = some (if n = 0 then 0x90 else 0x80, if n = 4 then 0x8F else 0xBF, 2) ∧
      leadBits (UInt8.ofNat (n + 240)) 3 = n := by
  revert n
  decide

theorem toNat_ofNat {n : Nat} (h : n < 256) : (UInt8.ofNat n).toNat = n := by
  rw [UInt8.toNat_ofNat', Nat.mod_eq_of_lt h]

/-- An octet with six bits of a code point lies in a range if its bits do. -/
theorem six_bits {n : Nat} (h : n < 64) {low high : UInt8} (hlow : low.toNat ≤ n + 128) (hhigh : n + 128 ≤ high.toNat) :
    (UInt8.ofNat (n + 128)).toNat % 64 = n ∧ low ≤ UInt8.ofNat (n + 128) ∧ UInt8.ofNat (n + 128) ≤ high := by
  rw [UInt8.le_iff_toNat_le, UInt8.le_iff_toNat_le, toNat_ofNat (by omega)]
  omega

/-- The octets after the second are bounded by nothing else. -/
theorem six_bits_later {n : Nat} (h : n < 64) :
    (UInt8.ofNat (n + 128)).toNat % 64 = n ∧ 0x80 ≤ UInt8.ofNat (n + 128) ∧ UInt8.ofNat (n + 128) ≤ 0xBF :=
  six_bits h (Nat.le_add_left 128 n) (Nat.add_le_add_right (Nat.le_of_lt_succ h) 128)

section CodePoints

variable {v : Nat} (rest : Bytes)

/-- Code points below 128 are read from one octet. -/
theorem lenientChars_one (h : v < 128) : lenientChars none (UInt8.ofNat v :: rest) = Char.ofNat v :: lenientChars none rest := by
  have hoctet : (UInt8.ofNat v).toNat = v := toNat_ofNat (by omega)
  have hsmall : UInt8.ofNat v < 0x80 := by
    rw [UInt8.lt_iff_toNat_lt, hoctet]
    exact h
  rw [lenientChars_small hsmall, hoctet]

/-- Code points below 2048 are read from two. -/
theorem lenientChars_two (hlow : 128 ≤ v) (hhigh : v < 2048) :
    lenientChars none (UInt8.ofNat (v / 64 % 32 + 192) :: UInt8.ofNat (v % 64 + 128) :: rest) =
      Char.ofNat v :: lenientChars none rest := by
  obtain ⟨hlead, hbits⟩ := continuation?_two (n := v / 64 % 32) (by omega) (by omega)
  obtain ⟨hlast, hlastLow, hlastHigh⟩ := six_bits_later (n := v % 64) (by omega)
  rw [lenientChars_lead hlead, hbits, lenientChars_last hlastLow hlastHigh, hlast,
    show v / 64 % 32 * 64 + v % 64 = v by omega]

/-- Code points below 65536 are read from three, but for the surrogates, which are no characters. -/
theorem lenientChars_three (hlow : 2048 ≤ v) (hhigh : v < 65536) (hvalid : v < 0xD800 ∨ 0xDFFF < v) :
    lenientChars none
        (UInt8.ofNat (v / 4096 % 16 + 224) :: UInt8.ofNat (v / 64 % 64 + 128) :: UInt8.ofNat (v % 64 + 128) :: rest) =
      Char.ofNat v :: lenientChars none rest := by
  obtain ⟨hlead, hbits⟩ := continuation?_three (n := v / 4096 % 16) (by omega)
  have hbounds : (if v / 4096 % 16 = 0 then 0xA0 else 0x80 : UInt8).toNat ≤ v / 64 % 64 + 128 ∧
      v / 64 % 64 + 128 ≤ (if v / 4096 % 16 = 13 then 0x9F else 0xBF : UInt8).toNat := by
    simp only [apply_ite UInt8.toNat, UInt8.reduceToNat]
    split <;> split <;> omega
  obtain ⟨hsecond, hsecondLow, hsecondHigh⟩ := six_bits (n := v / 64 % 64) (by omega) hbounds.1 hbounds.2
  obtain ⟨hlast, hlastLow, hlastHigh⟩ := six_bits_later (n := v % 64) (by omega)
  rw [lenientChars_lead hlead, hbits, lenientChars_more hsecondLow hsecondHigh, hsecond,
    lenientChars_last hlastLow hlastHigh, hlast, show (v / 4096 % 16 * 64 + v / 64 % 64) * 64 + v % 64 = v by omega]

/-- All others are read from four. -/
theorem lenientChars_four (hlow : 65536 ≤ v) (hhigh : v < 0x110000) :
    lenientChars none
        (UInt8.ofNat (v / 262144 % 8 + 240) :: UInt8.ofNat (v / 4096 % 64 + 128) :: UInt8.ofNat (v / 64 % 64 + 128) ::
          UInt8.ofNat (v % 64 + 128) :: rest) =
      Char.ofNat v :: lenientChars none rest := by
  obtain ⟨hlead, hbits⟩ := continuation?_four (n := v / 262144 % 8) (by omega)
  have hbounds : (if v / 262144 % 8 = 0 then 0x90 else 0x80 : UInt8).toNat ≤ v / 4096 % 64 + 128 ∧
      v / 4096 % 64 + 128 ≤ (if v / 262144 % 8 = 4 then 0x8F else 0xBF : UInt8).toNat := by
    simp only [apply_ite UInt8.toNat, UInt8.reduceToNat]
    split <;> split <;> omega
  obtain ⟨hsecond, hsecondLow, hsecondHigh⟩ := six_bits (n := v / 4096 % 64) (by omega) hbounds.1 hbounds.2
  obtain ⟨hthird, hthirdLow, hthirdHigh⟩ := six_bits_later (n := v / 64 % 64) (by omega)
  obtain ⟨hlast, hlastLow, hlastHigh⟩ := six_bits_later (n := v % 64) (by omega)
  rw [lenientChars_lead hlead, hbits, lenientChars_more hsecondLow hsecondHigh, hsecond,
    lenientChars_more hthirdLow hthirdHigh, hthird, lenientChars_last hlastLow hlastHigh, hlast,
    show ((v / 262144 % 8 * 64 + v / 4096 % 64) * 64 + v / 64 % 64) * 64 + v % 64 = v by omega]

end CodePoints

/-- The octets of a character are read as it, whatever stands behind them. -/
theorem lenientChars_encodeChar (c : Char) (rest : Bytes) :
    lenientChars none (String.utf8EncodeChar c ++ rest) = c :: lenientChars none rest := by
  have hvalue : Char.ofNat c.val.toNat = c := Char.ofNat_toNat c
  have hvalid : c.val.toNat < 0xD800 ∨ 0xDFFF < c.val.toNat ∧ c.val.toNat < 0x110000 := c.valid
  unfold String.utf8EncodeChar
  generalize c.val.toNat = v at hvalue hvalid
  rw [← hvalue]
  simp only
  split
  · exact lenientChars_one rest (by omega)
  · split
    · exact lenientChars_two rest (by omega) (by omega)
    · split
      · exact lenientChars_three rest (by omega) (by omega) (by omega)
      · exact lenientChars_four rest (by omega) (by omega)

/-- The octets of a text are read as it, whatever stands behind them. -/
theorem lenientChars_encodeChars (s : List Char) (rest : Bytes) :
    lenientChars none (encodeChars s ++ rest) = s ++ lenientChars none rest := by
  induction s with
  | nil => rfl
  | cons c s ih => rw [encodeChars_cons, List.append_assoc, lenientChars_encodeChar, ih, List.cons_append]

end FrameMerge.Text
