import FrameMerge.Json.Reader
import FrameMerge.Proofs.Characters
import FrameMerge.Proofs.Grammar

/-!
# Strings and numbers are read back

The reader undoes what the printer does to a string (`Json.readText_quoted`): it looks at one escape or at the octets of one
character at a time, and finds the closing quote because no character is written in octets that hold a quote. A whole number
is read back if what stands behind it does not go on with it (`Json.readNumber_whole`); its digits are collected without
loss, since all numbers of the format fit where they are collected.
-/

namespace FrameMerge.Json

open Text

/-! ## Strings -/

/-- Octets that are neither quotes nor backslashes nor controls are taken as they are. -/
theorem readString_plain {octets : Bytes} (h : ∀ b ∈ octets, 0x20 ≤ b.toNat ∧ b ≠ 0x22 ∧ b ≠ 0x5C) (seen rest : Bytes) :
    readString seen (octets ++ rest) = readString (octets.reverse ++ seen) rest := by
  induction octets generalizing seen with
  | nil => rfl
  | cons b octets ih =>
    obtain ⟨⟨hcontrol, hquote, hbackslash⟩, hlater⟩ := List.forall_mem_cons.1 h
    have hplain : ¬b < 0x20 := by
      rw [UInt8.lt_iff_toNat_lt]
      exact Nat.not_lt.2 hcontrol
    rw [List.cons_append, List.reverse_cons, List.append_assoc, readString.eq_def]
    split
    · rename_i heq
      cases heq
    · rename_i heq
      exact absurd (List.cons.inj heq).1 hquote
    iterate 4
      rename_i heq
      exact absurd (List.cons.inj heq).1 hbackslash
    · rename_i heq
      cases heq
      rw [if_neg hplain]
      exact ih hlater (b :: seen)

/-- A digit of a code point is read back to its value. -/
theorem hexValue?_hexDigit {n : Nat} (h : n < 16) : hexValue? (hexDigit n).toNat.toUInt8 = some n := by
  revert n
  decide

/-- Such digits take one octet each. -/
theorem toNat_hexDigit_lt {n : Nat} (h : n < 16) : (hexDigit n).toNat < 128 := by
  revert n
  decide

/-- An escape by code point stands for its character. -/
theorem readString_codePoint {c : Char} (h : c.toNat < 0x20) (seen rest : Bytes) :
    readString seen (encodeChars ['\\', 'u', '0', '0', hexDigit (c.toNat / 16), hexDigit (c.toNat % 16)] ++ rest) =
      readString ((String.utf8EncodeChar c).reverse ++ seen) rest := by
  have hhigh := hexValue?_hexDigit (n := c.toNat / 16) (by omega)
  have hlow := hexValue?_hexDigit (n := c.toNat % 16) (by omega)
  have hoctets : encodeChars ['\\', 'u', '0', '0', hexDigit (c.toNat / 16), hexDigit (c.toNat % 16)] =
      [0x5C, 0x75, 0x30, 0x30, (hexDigit (c.toNat / 16)).toNat.toUInt8, (hexDigit (c.toNat % 16)).toNat.toUInt8] := by
    rw [encodeChars_of_lt]
    · rfl
    · have hhigh := toNat_hexDigit_lt (n := c.toNat / 16) (by omega)
      have hlow := toNat_hexDigit_lt (n := c.toNat % 16) (by omega)
      simp [hhigh, hlow]
  have hquad : hexQuad? 0x30 0x30 (hexDigit (c.toNat / 16)).toNat.toUInt8 (hexDigit (c.toNat % 16)).toNat.toUInt8 =
      some c.toNat := by
    have hzero : hexValue? 0x30 = some 0 := by decide
    rw [hexQuad?, hzero, hhigh, hlow]
    simp only [Option.some.injEq]
    omega
  have hleading : isLeadingSurrogate c.toNat = false := by
    simp [isLeadingSurrogate]
    omega
  have htrailing : isTrailingSurrogate c.toNat = false := by
    simp [isTrailingSurrogate]
    omega
  rw [hoctets]
  simp only [List.cons_append, List.nil_append]
  rw [readString]
  simp only [hquad, hleading, htrailing, Bool.false_eq_true, if_false, codePoint, Char.ofNat_toNat]

/-- A character is read back from its escape, or from its octets if it needs none. -/
theorem readString_escape (c : Char) (seen rest : Bytes) :
    readString seen (encodeChars (escape c) ++ rest) = readString ((String.utf8EncodeChar c).reverse ++ seen) rest := by
  unfold escape
  split
  iterate 7
    show readString seen (0x5C :: _ :: rest) = _
    simp [readString, letterEscape?, String.utf8EncodeChar]
  rename_i hquote hbackslash _ _ _ _ _
  split
  · rename_i hcontrol
    exact readString_codePoint hcontrol seen rest
  · rename_i hcontrol
    rw [encodeChars_cons, encodeChars_nil, List.append_nil]
    refine readString_plain ?_ seen rest
    intro b hb
    by_cases hsmall : c.toNat < 128
    · rw [utf8EncodeChar_of_lt hsmall, List.mem_singleton] at hb
      have hnat := toNat_toUInt8 hsmall
      rw [← hb] at hnat
      refine ⟨by omega, ?_, ?_⟩
      · rintro rfl
        exact hquote (Char.toNat_inj.1 hnat.symm)
      · rintro rfl
        exact hbackslash (Char.toNat_inj.1 hnat.symm)
    · have hlarge := le_of_mem_utf8EncodeChar (Nat.not_lt.1 hsmall) hb
      refine ⟨by omega, ?_, ?_⟩
      · rintro rfl
        exact absurd hlarge (by decide)
      · rintro rfl
        exact absurd hlarge (by decide)

/-- A text is read back from its escapes, up to the quote behind it. -/
theorem readString_escapes (s : List Char) (seen rest : Bytes) :
    readString seen (encodeChars (s.flatMap escape) ++ 0x22 :: rest) = .ok (seen.reverse ++ encodeChars s, rest) := by
  induction s generalizing seen with
  | nil =>
    rw [List.flatMap_nil, encodeChars_nil, List.nil_append, readString, List.append_nil]
  | cons c s ih =>
    rw [List.flatMap_cons, encodeChars_append, List.append_assoc, readString_escape, ih, encodeChars_cons,
      List.reverse_append, List.reverse_reverse, List.append_assoc]

/-- A string is read back from behind its opening quote. -/
theorem readText_quoted (s : String) (rest : Bytes) :
    ∃ octets, encodeChars (quoted s) = 0x22 :: octets ∧ readText (octets ++ rest) = .ok (s, rest) := by
  refine ⟨encodeChars (s.toList.flatMap escape) ++ [0x22], ?_, ?_⟩
  · rw [quoted, List.cons_append, encodeChars_cons, encodeChars_append]
    rfl
  · have hread := readString_escapes s.toList [] rest
    rw [readText, List.append_assoc, List.singleton_append, hread, List.reverse_nil, List.nil_append, ← utf8_eq]
    simp only [Except.bind, ofUtf8?_utf8]

/-! ## Numbers -/

/-- What stands here does not go on with a number that ended before it. -/
def EndsNumber (rest : Bytes) : Prop := ∀ b ∈ rest.head?, isDigit b = false ∧ b ≠ 0x2E ∧ b ≠ 0x65 ∧ b ≠ 0x45

/-- Digits are written as their code points. -/
theorem encodeChars_digits {s : List Char} (h : ∀ c ∈ s, c.isDigit) : encodeChars s = s.map fun c => c.toNat.toUInt8 := by
  refine encodeChars_of_lt fun c hc => ?_
  have hbounds := isDigit_bounds (h c hc)
  omega

/-- The octet of a digit is a digit of the same value. -/
theorem digit_octet {c : Char} (h : c.isDigit) :
    isDigit c.toNat.toUInt8 = true ∧ digitValue c.toNat.toUInt8 = c.toNat - '0'.toNat := by
  have hbounds := isDigit_bounds h
  have hnat := toNat_toUInt8 (c := c) (by omega)
  refine ⟨?_, ?_⟩
  · simp only [isDigit, Bool.and_eq_true, decide_eq_true_eq, UInt8.le_iff_toNat_le, hnat]
    exact hbounds
  · rw [digitValue, hnat]
    rfl

/-- Digits as octets are digits to the reader. -/
theorem isDigit_of_mem_encodeChars {s : List Char} (h : ∀ c ∈ s, c.isDigit) {b : UInt8} (hb : b ∈ encodeChars s) :
    isDigit b = true := by
  rw [encodeChars_digits h] at hb
  obtain ⟨c, hc, rfl⟩ := List.mem_map.1 hb
  exact (digit_octet (h c hc)).1

/-- All digits of a number are collected, if it fits sixty-four bits. -/
theorem collect_encodeChars {s : List Char} (h : ∀ c ∈ s, c.isDigit) {value : Nat}
    (hfits : Nat.ofDigitChars 10 s value < bound64) :
    collect value (encodeChars s) = (Nat.ofDigitChars 10 s value, 0) := by
  rw [encodeChars_digits h]
  induction s generalizing value with
  | nil => rfl
  | cons c s ih =>
    obtain ⟨hc, hs⟩ := List.forall_mem_cons.1 h
    have hvalue : value * 10 + digitValue c.toNat.toUInt8 = 10 * value + (c.toNat - '0'.toNat) := by
      rw [(digit_octet hc).2, Nat.mul_comm]
    rw [Nat.ofDigitChars_cons] at hfits ⊢
    have hnext : 10 * value + (c.toNat - '0'.toNat) < bound64 := by
      rw [Nat.ofDigitChars_eq_ofDigitChars_zero] at hfits
      have hgrows := Nat.le_mul_of_pos_left (10 * value + (c.toNat - '0'.toNat)) (Nat.pow_pos (n := s.length) (by decide : 0 < 10))
      omega
    rw [List.map_cons, collect]
    simp only [hvalue, hnext, if_true]
    exact ih hs hfits

/-- Digits are read up to what does not go on with them. -/
theorem readDigits_append {digits rest : Bytes} (hsome : digits ≠ []) (h : ∀ b ∈ digits, isDigit b = true)
    (hrest : EndsNumber rest) : readDigits (digits ++ rest) = .ok (digits, rest) := by
  obtain ⟨first, others, rfl⟩ := List.exists_cons_of_ne_nil hsome
  have hstop : rest.takeWhile isDigit = [] ∧ rest.dropWhile isDigit = rest := by
    cases rest with
    | nil => exact ⟨rfl, rfl⟩
    | cons b rest =>
      have hb := (hrest b rfl).1
      exact ⟨List.takeWhile_cons_of_neg (by simp [hb]), List.dropWhile_cons_of_neg (by simp [hb])⟩
  have htake := @List.takeWhile_append_of_pos _ isDigit (first :: others) rest h
  have hdrop := @List.dropWhile_append_of_pos _ isDigit (first :: others) rest h
  rw [hstop.1, List.append_nil] at htake
  rw [hstop.2] at hdrop
  rw [List.cons_append] at htake hdrop ⊢
  rw [readDigits]
  simp only [h first List.mem_cons_self, if_true, htake, hdrop]

theorem IsWhole.isDigit {s : List Char} (h : IsWhole s) : ∀ c ∈ s, c.isDigit := by
  cases h with
  | zero => exact List.forall_mem_singleton.2 rfl
  | digits hfirst _ hothers => exact List.forall_mem_cons.2 ⟨hfirst, hothers⟩

/-- The digits before the point start with a digit, which is no zero unless it is the only one. -/
theorem IsWhole.encodeChars_eq {s : List Char} (h : IsWhole s) :
    ∃ first others, encodeChars s = first :: others ∧ Json.isDigit first = true ∧ (first = 0x30 → others = []) := by
  cases h with
  | zero => exact ⟨0x30, [], rfl, rfl, fun _ => rfl⟩
  | @digits first others hfirst hzero hothers =>
    have hbounds := isDigit_bounds hfirst
    have hnat := toNat_toUInt8 (c := first) (by omega)
    refine ⟨first.toNat.toUInt8, encodeChars others, ?_, (digit_octet hfirst).1, fun heq => ?_⟩
    · rw [encodeChars_cons, utf8EncodeChar_of_lt (by omega)]
      rfl
    · rw [heq] at hnat
      exact absurd (Char.toNat_inj.1 hnat.symm) hzero

/-- Digits without a leading zero are the digits before the point. -/
theorem readWhole_append {s : List Char} (h : IsWhole s) {rest : Bytes} (hrest : EndsNumber rest) :
    readWhole (encodeChars s ++ rest) = .ok (encodeChars s, rest) := by
  obtain ⟨first, others, heq, -, hzero⟩ := h.encodeChars_eq
  have hread := readDigits_append (heq ▸ List.cons_ne_nil _ _) (fun b hb => isDigit_of_mem_encodeChars h.isDigit hb) hrest
  have hleading : ¬((encodeChars s).head? = some 0x30 && (encodeChars s).length ≠ 1) = true := by
    rw [heq]
    simp only [List.head?_cons, Option.some.injEq, List.length_cons, Bool.and_eq_true, decide_eq_true_eq]
    rintro ⟨hfirst, hlength⟩
    rw [hzero hfirst] at hlength
    exact hlength rfl
  rw [readWhole, hread]
  exact if_neg hleading

/-- Where a number ends there is no fraction. -/
theorem readFraction_of_endsNumber {rest : Bytes} (h : EndsNumber rest) : readFraction rest = .ok ([], rest) := by
  unfold readFraction
  split
  · exact absurd rfl (h 0x2E rfl).2.1
  · rfl

theorem readExponent_of_endsNumber {rest : Bytes} (h : EndsNumber rest) : readExponent rest = .ok (none, rest) := by
  cases rest with
  | nil => rfl
  | cons b rest =>
    have hb := h b rfl
    simp [readExponent, hb.2.2]

/-- Reads a numeral behind its sign. -/
def readUnsigned (negative : Bool) (s : Bytes) : Except Numeral.Fault (Numeral × Bytes) :=
  (readWhole s).bind fun (whole, rest) =>
    (readFraction rest).bind fun (fraction, rest) =>
      (readExponent rest).map fun (exponent, rest) => (⟨negative, whole, fraction, exponent⟩, rest)

/-- A minus in front makes a number negative. -/
theorem readNumeral_minus (s : Bytes) : readNumeral (0x2D :: s) = readUnsigned true s := rfl

/-- No other sign may stand in front of it. -/
theorem readNumeral_of_ne_minus {b : UInt8} (h : b ≠ 0x2D) (s : Bytes) :
    readNumeral (b :: s) = readUnsigned false (b :: s) := by
  rw [readNumeral.eq_def]
  split
  rename_i negative unsigned heq
  split at heq
  · rename_i hminus
    exact absurd (List.cons.inj hminus).1 h
  · cases heq
    rfl

/-- Whole digits at the end of a number are all of it. -/
theorem readUnsigned_append (negative : Bool) {s : List Char} (h : IsWhole s) {rest : Bytes} (hrest : EndsNumber rest) :
    readUnsigned negative (encodeChars s ++ rest) = .ok (⟨negative, encodeChars s, [], none⟩, rest) := by
  unfold readUnsigned
  simp only [readWhole_append h hrest, readFraction_of_endsNumber hrest, readExponent_of_endsNumber hrest, Except.bind]
  rfl

/-- A whole number is read without a fraction and without an exponent. -/
theorem readNumeral_append (negative : Bool) {s : List Char} (h : IsWhole s) {rest : Bytes} (hrest : EndsNumber rest) :
    readNumeral (encodeChars ((if negative then ['-'] else []) ++ s) ++ rest) =
      .ok (⟨negative, encodeChars s, [], none⟩, rest) := by
  cases negative with
  | true => exact (readNumeral_minus _).trans (readUnsigned_append true h hrest)
  | false =>
    obtain ⟨first, others, heq, hdigit, -⟩ := h.encodeChars_eq
    have hplus : first ≠ 0x2D := by
      rintro rfl
      exact absurd hdigit (by decide)
    have hread := readUnsigned_append false h hrest
    rw [if_neg Bool.false_ne_true, List.nil_append]
    rw [heq, List.cons_append] at hread ⊢
    exact (readNumeral_of_ne_minus hplus _).trans hread

/-- The digits of a whole number stand for it. -/
theorem value?_whole (n : WholeNumber) :
    (⟨decide (n.value < 0), encodeChars (Nat.toDigits 10 n.value.natAbs), [], none⟩ : Numeral).value? =
      some (.whole n) := by
  obtain ⟨value, hrange⟩ := n
  have hdigits : ∀ c ∈ Nat.toDigits 10 value.natAbs, c.isDigit := fun c hc => isDigit_of_mem_toDigits hc
  have hfits : Nat.ofDigitChars 10 (Nat.toDigits 10 value.natAbs) 0 < bound64 := by
    rw [Nat.ofDigitChars_ten_toDigits, bound64]
    omega
  have hcollect := collect_encodeChars hdigits hfits
  rw [Nat.ofDigitChars_ten_toDigits] at hcollect hfits
  unfold Numeral.value?
  simp only [hcollect, List.isEmpty_nil, Option.isNone_none, Bool.and_self, decide_true, if_true]
  by_cases hnegative : value < 0
  · have hrange' : value.natAbs ≠ 0 ∧ 2 * value.natAbs ≤ bound64 := by
      rw [bound64]
      omega
    rw [if_pos (decide_eq_true hnegative), dif_pos hrange']
    congr
    omega
  · rw [if_neg (by simpa using hnegative), dif_pos hfits]
    congr
    omega

/-- A whole number is read back. -/
theorem readNumber_whole (n : WholeNumber) {rest : Bytes} (hrest : EndsNumber rest) :
    readNumber (encodeChars (numberChars (.whole n)) ++ rest) = .ok (.whole n, rest) := by
  have hread := readNumeral_append (decide (n.value < 0)) (isWhole_toDigits n.value.natAbs) hrest
  simp only [decide_eq_true_eq] at hread
  rw [readNumber, numberChars, hread]
  simp only [value?_whole]

end FrameMerge.Json
