import FrameMerge.Text.Natural
import Mathlib.Data.List.Basic

/-!
# Numbers as they are written

Which texts are read as natural numbers, and as which (`Text.readNatural_eq_ok_iff`): decimal digits, any number of zeros in
front of them, and a plus sign before all that or none. The bound on the number is a bound on nothing else, although reading
stops at the first digit that goes beyond it.
-/

namespace FrameMerge.Text

/-- A text stands for a number: one or more decimal digits, with a plus sign before them or without. -/
inductive StandsFor : List Char → Nat → Prop
  | bare {digits : List Char} (hsome : digits ≠ []) (hdigits : ∀ c ∈ digits, c.isDigit) :
    StandsFor digits (Nat.ofDigitChars 10 digits 0)
  | signed {digits : List Char} (hsome : digits ≠ []) (hdigits : ∀ c ∈ digits, c.isDigit) :
    StandsFor ('+' :: digits) (Nat.ofDigitChars 10 digits 0)

/-- A number is written in digits and a plus sign at most. -/
theorem StandsFor.notMem {s : List Char} {n : Nat} (h : StandsFor s n) {c : Char} (hdigit : c.isDigit = false)
    (hplus : c ≠ '+') : c ∉ s := by
  intro hmem
  cases h with
  | bare hsome hdigits =>
    rw [hdigits c hmem] at hdigit
    cases hdigit
  | signed hsome hdigits =>
    rcases List.mem_cons.1 hmem with rfl | hmem
    · exact hplus rfl
    · rw [hdigits c hmem] at hdigit
      cases hdigit

/-- Further digits make no number smaller. -/
theorem le_ofDigitChars (s : List Char) (value : Nat) : value ≤ Nat.ofDigitChars 10 s value := by
  induction s generalizing value with
  | nil => exact Nat.le_refl _
  | cons c s ih =>
    rw [Nat.ofDigitChars_cons]
    exact Nat.le_trans (by omega) (ih _)

theorem readDigits_eq_ok_iff {bound value n : Nat} {s : List Char} :
    readDigits bound value s = .ok n ↔
      (∀ c ∈ s, c.isDigit) ∧ Nat.ofDigitChars 10 s value = n ∧ (s = [] ∨ n < bound) := by
  induction s generalizing value with
  | nil => simp [readDigits]
  | cons c s ih =>
    rw [readDigits, digit?, Nat.ofDigitChars_cons, List.forall_mem_cons, Nat.mul_comm 10]
    by_cases hc : c.isDigit = true
    · have hle := le_ofDigitChars s (value * 10 + (c.toNat - '0'.toNat))
      rw [if_pos hc]
      simp only
      split
      · rename_i hnext
        rw [ih]
        constructor
        · rintro ⟨hdigits, hvalue, hs⟩
          refine ⟨⟨hc, hdigits⟩, hvalue, Or.inr ?_⟩
          rcases hs with rfl | hs
          · exact hvalue ▸ hnext
          · exact hs
        · rintro ⟨⟨-, hdigits⟩, hvalue, hs⟩
          exact ⟨hdigits, hvalue, Or.inr (hs.resolve_left (List.cons_ne_nil c s))⟩
      · rename_i hnext
        refine iff_of_false (fun h => nomatch h) ?_
        rintro ⟨-, rfl, hs⟩
        exact hnext (Nat.lt_of_le_of_lt hle (hs.resolve_left (List.cons_ne_nil c s)))
    · rw [if_neg hc]
      exact iff_of_false (fun h => nomatch h) fun h => hc h.1.1

theorem readNatural_of_digits {s : List Char} (hsome : s ≠ []) (h : ∀ c ∈ s, c.isDigit) (bound : Nat) :
    readNatural bound s = readDigits bound 0 s := by
  unfold readNatural
  split
  · exact absurd rfl hsome
  · rfl
  · exact absurd (h '+' List.mem_cons_self) (by decide)
  · rfl

/-- Texts are read as the numbers they stand for, below the bound. -/
theorem readNatural_eq_ok_iff {bound n : Nat} {s : List Char} :
    readNatural bound s = .ok n ↔ StandsFor s n ∧ n < bound := by
  constructor
  · intro h
    unfold readNatural at h
    split at h
    · cases h
    · rename_i c
      obtain ⟨hdigits, rfl, hbound⟩ := readDigits_eq_ok_iff.1 h
      exact ⟨.bare (by simp) hdigits, hbound.resolve_left (by simp)⟩
    · rename_i rest hsingle
      have hsome : rest ≠ [] := by
        rintro rfl
        exact hsingle rfl
      obtain ⟨hdigits, rfl, hbound⟩ := readDigits_eq_ok_iff.1 h
      exact ⟨.signed hsome hdigits, hbound.resolve_left hsome⟩
    · rename_i hsome _ _
      obtain ⟨hdigits, rfl, hbound⟩ := readDigits_eq_ok_iff.1 h
      exact ⟨.bare hsome hdigits, hbound.resolve_left hsome⟩
  · rintro ⟨hstands, hbound⟩
    cases hstands with
    | bare hsome hdigits =>
      rw [readNatural_of_digits hsome hdigits]
      exact readDigits_eq_ok_iff.2 ⟨hdigits, rfl, Or.inr hbound⟩
    | @signed digits hsome hdigits =>
      obtain ⟨d, rest, rfl⟩ := List.exists_cons_of_ne_nil hsome
      exact readDigits_eq_ok_iff.2 ⟨hdigits, rfl, Or.inr hbound⟩

/-- A text stands for one number at most. -/
theorem StandsFor.unique {s : List Char} {m n : Nat} (hm : StandsFor s m) (hn : StandsFor s n) : m = n := by
  have hreadm := readNatural_eq_ok_iff.2 ⟨hm, (by omega : m < m + n + 1)⟩
  have hreadn := readNatural_eq_ok_iff.2 ⟨hn, (by omega : n < m + n + 1)⟩
  exact Except.ok.inj (hreadm.symm.trans hreadn)

/-- A number is what its digits stand for. -/
theorem standsFor_toDigits (n : Nat) : StandsFor (Nat.toDigits 10 n) n := by
  have hdigits : ∀ c ∈ Nat.toDigits 10 n, c.isDigit := fun c hc =>
    Nat.isDigit_of_mem_toDigits (by decide) (Nat.le_refl 10) hc
  have hstands := StandsFor.bare Nat.toDigits_ne_nil hdigits
  rwa [Nat.ofDigitChars_ten_toDigits] at hstands

end FrameMerge.Text
