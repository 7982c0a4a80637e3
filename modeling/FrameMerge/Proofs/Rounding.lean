import FrameMerge.Binary64
import FrameMerge.Text.Natural
import Mathlib.Algebra.Order.Ring.Nat

/-!
# Rounding goes no further than it must

A number of units that does not exceed a representable number is not rounded past it (`Binary64.nearestMagnitude_le`).
From this alone it follows that a product with a share does not exceed the other factor (`Binary64.magnitude_mul_le`), and
that a quotient of counts is a number (`Binary64.isNaN_div_ofNat`).
-/

namespace FrameMerge

/-- A ratio that a natural number bounds is not rounded past it. -/
theorem roundHalfEven_le {num den bound : Nat} (hden : 0 < den) (h : num ≤ bound * den) :
    roundHalfEven num den ≤ bound := by
  have hquotient : num / den ≤ bound := Nat.div_le_of_le_mul (by rwa [Nat.mul_comm] at h)
  have hdivide := Nat.div_add_mod num den
  unfold roundHalfEven
  rcases Nat.lt_or_eq_of_le hquotient with hless | hequal
  · simp only
    split
    · exact hquotient
    · split
      · exact hless
      · split
        · exact hquotient
        · exact hless
  · -- nothing is left to round up
    have hnone : num % den = 0 := by
      rw [hequal, Nat.mul_comm den bound] at hdivide
      omega
    simp only [hnone, Nat.mul_zero, hden, if_true]
    exact hquotient

namespace Binary64

/-- A magnitude is an exponent and a fraction of fifty-two places. -/
theorem magnitude_eq (x : Binary64) : x.magnitude = x.exponentField * 2 ^ 52 + x.magnitude % 2 ^ 52 := by
  rw [exponentField, Nat.shiftRight_eq_div_pow]
  omega

/-- Near zero all units are representable. -/
theorem units_of_small {x : Binary64} (h : x.exponentField = 0) : x.units = x.magnitude := by
  have hmagnitude := x.magnitude_eq
  rw [units]
  simp only [h, if_true, Nat.one_shiftLeft]
  omega

/-- A normal number has its leading bit besides those that are stored. -/
theorem units_of_normal {x : Binary64} (h : x.exponentField ≠ 0) :
    x.units = (2 ^ 52 + x.magnitude % 2 ^ 52) * 2 ^ (x.exponentField - 1) := by
  rw [units]
  simp only [h, if_false, Nat.shiftLeft_eq, Nat.one_mul]

/-- What does not exceed a number needs no greater exponent. -/
theorem log2_le_of_le_units {n : Nat} {x : Binary64} (h : n ≤ x.units) :
    Nat.log2 n - 52 ≤ x.exponentField - 1 := by
  by_cases hzero : n = 0
  · rw [hzero, Nat.log2_zero]
    exact Nat.zero_le _
  · have hunits : x.units < 2 ^ (53 + (x.exponentField - 1)) := by
      by_cases hfield : x.exponentField = 0
      · have hmagnitude := x.magnitude_eq
        rw [units_of_small hfield, hfield]
        omega
      · have hfraction : x.magnitude % 2 ^ 52 < 2 ^ 52 := Nat.mod_lt _ (by decide)
        rw [units_of_normal hfield, Nat.pow_add]
        exact Nat.mul_lt_mul_of_pos_right (by omega) (Nat.two_pow_pos _)
    have hlog := (Nat.log2_lt hzero).2 (Nat.lt_of_le_of_lt h hunits)
    omega

/-- What does not exceed a representable number is not rounded past it. -/
theorem nearestMagnitude_le {num den : Nat} {x : Binary64} (hden : 0 < den) (h : num ≤ x.units * den) :
    nearestMagnitude num den ≤ x.magnitude := by
  have hmagnitude := x.magnitude_eq
  have hquotient : num / den ≤ x.units := Nat.div_le_of_le_mul (by rwa [Nat.mul_comm] at h)
  have hexponent := log2_le_of_le_units hquotient
  have hlog : num / den < 2 ^ (Nat.log2 (num / den) + 1) := Nat.lt_log2_self
  unfold nearestMagnitude
  generalize hk : Nat.log2 (num / den) - 52 = k at hexponent ⊢
  simp only [Nat.shiftLeft_eq]
  have hscaled : 0 < den * 2 ^ k := Nat.mul_pos hden (Nat.two_pow_pos k)
  by_cases hfield : x.exponentField = 0
  · have hnone : k = 0 := by omega
    have hbelow : num ≤ x.magnitude * (den * 2 ^ k) := by
      rwa [hnone, Nat.pow_zero, Nat.mul_one, ← units_of_small hfield]
    have hround := roundHalfEven_le hscaled hbelow
    omega
  · rcases Nat.lt_or_eq_of_le hexponent with hless | hequal
    · -- with a smaller exponent the number is below the bound, even if it is rounded up to the next power of two
      have hpower : num / den < 2 ^ (53 + k) :=
        Nat.lt_of_lt_of_le hlog (Nat.pow_le_pow_right (by decide) (by omega))
      have hbelow : num ≤ 2 ^ 53 * (den * 2 ^ k) := by
        have hnum := (Nat.div_lt_iff_lt_mul hden).1 hpower
        rw [Nat.pow_add, Nat.mul_assoc, Nat.mul_comm (2 ^ k) den] at hnum
        exact Nat.le_of_lt hnum
      have hround := roundHalfEven_le hscaled hbelow
      omega
    · have hbelow : num ≤ (2 ^ 52 + x.magnitude % 2 ^ 52) * (den * 2 ^ k) := by
        rwa [units_of_normal hfield, ← hequal, Nat.mul_assoc, Nat.mul_comm (2 ^ k) den] at h
      have hround := roundHalfEven_le hscaled hbelow
      omega

/-! ## Products and quotients -/

/-- A magnitude of a number, with either sign, makes a number. -/
theorem isNaN_ofMagnitude (negative : Bool) (magnitude : Nat) : (ofMagnitude negative magnitude).isNaN = false := by
  have hle : min magnitude infinityMagnitude ≤ infinityMagnitude := Nat.min_le_right _ _
  exact decide_eq_false (Nat.not_lt.2 hle)

/-- What is finite is a number. -/
theorem isNaN_of_isFinite {x : Binary64} (h : x.isFinite = true) : x.isNaN = false := by
  simp only [isFinite, isNaN, decide_eq_true_eq, decide_eq_false_iff_not] at h ⊢
  omega

theorem isInfinite_of_isFinite {x : Binary64} (h : x.isFinite = true) : x.isInfinite = false := by
  simp only [isFinite, isInfinite, decide_eq_true_eq, beq_eq_false_iff_ne] at h ⊢
  omega

/-- Rounding keeps the sign and gives numbers. -/
theorem negative_ofRatio (negative : Bool) (num den : Nat) : (ofRatio negative num den).negative = negative := rfl

/-- Rounding a ratio gives a number. -/
theorem isNaN_ofRatio (negative : Bool) (num den : Nat) : (ofRatio negative num den).isNaN = false :=
  isNaN_ofMagnitude negative _

/-- The product of finite numbers is rounded once. -/
theorem mul_eq {x y : Binary64} (hx : x.isFinite = true) (hy : y.isFinite = true) :
    x.mul y = ofRatio (x.negative != y.negative) (x.units * y.units) (1 <<< unitPlaces) := by
  simp [mul, isNaN_of_isFinite hx, isNaN_of_isFinite hy, isInfinite_of_isFinite hx, isInfinite_of_isFinite hy]

/-- A product is no greater than one factor if the other is no greater than one. -/
theorem magnitude_mul_le {x y : Binary64} (hx : x.isFinite = true) (hy : y.isFinite = true)
    (h : y.units ≤ 1 <<< unitPlaces) : (x.mul y).magnitude ≤ x.magnitude := by
  have hone : 0 < 1 <<< unitPlaces := by
    rw [Nat.one_shiftLeft]
    exact Nat.two_pow_pos _
  rw [mul_eq hx hy]
  exact (Nat.min_le_left _ _).trans (nearestMagnitude_le hone (Nat.mul_le_mul_left _ h))

/-- A count is a finite number. -/
theorem isFinite_ofNat {n : Nat} (h : n < Text.bound64) : (ofNat n).isFinite = true := by
  have hbound : (ofNat Text.bound64).units = Text.bound64 <<< unitPlaces ∧
      (ofNat Text.bound64).magnitude < infinityMagnitude := by decide +kernel
  have hunits : n <<< unitPlaces ≤ (ofNat Text.bound64).units * 1 := by
    rw [hbound.1, Nat.mul_one, Nat.shiftLeft_eq, Nat.shiftLeft_eq]
    exact Nat.mul_le_mul_right _ (Nat.le_of_lt h)
  have hmagnitude : (ofNat n).magnitude ≤ (ofNat Text.bound64).magnitude :=
    (Nat.min_le_left _ _).trans (nearestMagnitude_le (by decide) hunits)
  exact decide_eq_true (Nat.lt_of_le_of_lt hmagnitude hbound.2)

/-- No counter but zero is rounded to zero. -/
theorem isZero_ofNat {n : Nat} (h : n ≠ 0) : (ofNat n).isZero = false := by
  have hunits : 2 ^ unitPlaces ≤ n <<< unitPlaces / 1 := by
    rw [Nat.div_one, Nat.shiftLeft_eq]
    exact Nat.le_mul_of_pos_left _ (Nat.pos_of_ne_zero h)
  have hsome : n <<< unitPlaces / 1 ≠ 0 := Nat.pos_iff_ne_zero.1 (Nat.lt_of_lt_of_le (Nat.two_pow_pos _) hunits)
  have hlog := (Nat.le_log2 hsome).2 hunits
  have hpos : 0 < nearestMagnitude (n <<< unitPlaces) 1 := by
    unfold nearestMagnitude
    simp only [Nat.shiftLeft_eq _ 52]
    rw [unitPlaces] at hlog
    rw [unitPlaces]
    omega
  have hmagnitude : 0 < min (nearestMagnitude (n <<< unitPlaces) 1) infinityMagnitude := Nat.lt_min.2 ⟨hpos, by decide⟩
  exact beq_eq_false_iff_ne.2 (Nat.pos_iff_ne_zero.1 hmagnitude)

/-- The quotient of two counts is a number, if the second is not zero. -/
theorem isNaN_div_ofNat {m n : Nat} (hm : m < Text.bound64) (hn : n < Text.bound64) (hsome : n ≠ 0) :
    ((ofNat m).div (ofNat n)).isNaN = false := by
  have hfinite := isFinite_ofNat hm
  have hfinite' := isFinite_ofNat hn
  simp only [div, isNaN_of_isFinite hfinite, isNaN_of_isFinite hfinite', isInfinite_of_isFinite hfinite,
    isInfinite_of_isFinite hfinite', isZero_ofNat hsome, Bool.or_self, Bool.false_eq_true, if_false]
  exact isNaN_ofRatio _ _ _

/-! ## Comparisons -/

/-- Numbers are compared by their position, and what is not a number is below nothing. -/
theorem lt_iff {x y : Binary64} : x.lt y = true ↔ x.isNaN = false ∧ y.isNaN = false ∧ x.position < y.position := by
  simp [lt, and_assoc]

theorem le_iff {x y : Binary64} : x.le y = true ↔ x.isNaN = false ∧ y.isNaN = false ∧ x.position ≤ y.position := by
  simp [le, and_assoc]

end Binary64

end FrameMerge
