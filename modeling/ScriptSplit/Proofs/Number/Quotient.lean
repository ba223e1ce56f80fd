import Mathlib
import ScriptSplit.Number.Double

/-!
# Quotients as floating-point numbers

The quotient of two positive integers of common size is rounded to a finite number that is not zero, so the
least integer above it is positive. Where the dividend is itself such a number, rounding never carries the
quotient past it, and where the divisor is one too, the least integer above the quotient is not changed at all.
-/

namespace ScriptSplit.Double

/-- At any exponent up to the one first guessed, the fraction has a whole part. -/
theorem scaled_le {num den : Nat} (hnum : 0 < num) {exponent : Int}
    (hexponent : exponent ≤ (num.log2 : Int) - (den.log2 : Int) - 52) :
    (scaled num den exponent).2 ≤ (scaled num den exponent).1 := by
  have hlow : 2 ^ num.log2 ≤ num := Nat.log2_self_le hnum.ne'
  have hhigh : den < 2 ^ (den.log2 + 1) := Nat.lt_log2_self
  unfold scaled
  split
  · next hneg =>
      calc den ≤ 2 ^ (den.log2 + 1) := hhigh.le
        _ ≤ 2 ^ (num.log2 + (-exponent).toNat) := Nat.pow_le_pow_right (by decide) (by omega)
        _ = 2 ^ num.log2 * 2 ^ (-exponent).toNat := Nat.pow_add _ _ _
        _ ≤ num * 2 ^ (-exponent).toNat := Nat.mul_le_mul_right _ hlow
  · next hpos =>
      calc den * 2 ^ exponent.toNat ≤ 2 ^ (den.log2 + 1) * 2 ^ exponent.toNat :=
            Nat.mul_le_mul_right _ hhigh.le
        _ = 2 ^ (den.log2 + 1 + exponent.toNat) := (Nat.pow_add _ _ _).symm
        _ ≤ 2 ^ num.log2 := Nat.pow_le_pow_right (by decide) (by omega)
        _ ≤ num := hlow

theorem scaled_pos (num : Nat) {den : Nat} (hden : 0 < den) (exponent : Int) :
    0 < (scaled num den exponent).2 := by
  unfold scaled
  split
  · exact hden
  · exact Nat.mul_pos hden (Nat.pow_pos (by decide))

theorem roundDiv_pos {num den : Nat} (hden : 0 < den) (h : den ≤ num) : 0 < roundDiv num den := by
  have hlow : 0 < num / den := Nat.div_pos h hden
  unfold roundDiv
  simp only
  split
  · exact hlow
  · split
    · omega
    · split
      · exact hlow
      · omega

theorem exponentFor_le (num : Nat) {den : Nat} (hden : den < 2 ^ 53) :
    exponentFor num den ≤ (num.log2 : Int) - (den.log2 : Int) - 52 := by
  have hlog : den.log2 < 53 := by
    rcases Nat.eq_zero_or_pos den with rfl | hpos
    · decide
    · exact (Nat.log2_lt hpos.ne').2 hden
  unfold exponentFor minExponent
  simp only
  split <;> omega

theorem ceil?_finite_pos {significand : Nat} (h : 0 < significand) (exponent : Int) :
    ∃ ceiling : Int, (finite false significand exponent).ceil? = some ceiling ∧ 0 < ceiling := by
  by_cases hneg : exponent < 0
  · have hunit : 0 < 2 ^ (-exponent).toNat := Nat.pow_pos (by decide)
    refine ⟨((significand + (2 ^ (-exponent).toNat - 1)) / 2 ^ (-exponent).toNat : Nat),
      by simp [ceil?, hneg], ?_⟩
    rw [Int.natCast_pos]
    exact Nat.div_pos (by omega) hunit
  · have hpos : 0 < significand * 2 ^ exponent.toNat := Nat.mul_pos h (Nat.pow_pos (by decide))
    exact ⟨(significand * 2 ^ exponent.toNat : Nat), by simp [ceil?, hneg], Int.natCast_pos.2 hpos⟩

/-- The quotient of positive integers has a positive ceiling. -/
theorem ceil?_ofQuotient_pos {num den : Nat} (hnum : 0 < num) (hden : 0 < den)
    (hlarge : num < 2 ^ 63) (hsmall : den < 2 ^ 53) :
    ∃ ceiling : Int, (ofQuotient false num den).ceil? = some ceiling ∧ 0 < ceiling := by
  have hexponent := exponentFor_le num hsmall
  have hpos := roundDiv_pos (scaled_pos num hden (exponentFor num den))
    (scaled_le hnum hexponent)
  have hlog : num.log2 < 63 := (Nat.log2_lt hnum.ne').2 hlarge
  unfold ofQuotient
  rw [if_neg hnum.ne']
  simp only
  split
  · rw [if_neg (by unfold maxExponent; omega)]
    exact ceil?_finite_pos (Nat.pow_pos (by decide)) _
  · rw [if_neg (by unfold maxExponent; omega)]
    exact ceil?_finite_pos hpos _

/-! ## Quotients stay below their dividend -/

theorem roundDiv_le (num : Nat) {den : Nat} (hden : 0 < den) : roundDiv num den ≤ num := by
  have hdivision := Nat.div_add_mod num den
  have hlow : num / den ≤ den * (num / den) := Nat.le_mul_of_pos_left _ hden
  unfold roundDiv
  simp only
  split
  · omega
  · -- What is rounded up has a remainder that is not zero.
    have hremainder : 0 < num % den := by omega
    split
    · omega
    · split <;> omega

/-- The bound is on both sides of the point: one of the two powers is always `1`. -/
theorem ceil?_finite_le {significand bound : Nat} {exponent : Int}
    (h : significand * 2 ^ exponent.toNat ≤ bound * 2 ^ (-exponent).toNat) {ceiling : Int}
    (hceiling : (finite false significand exponent).ceil? = some ceiling) : ceiling ≤ bound := by
  unfold ceil? at hceiling
  simp only [Bool.false_eq_true, if_false, Nat.pow_eq] at hceiling
  split at hceiling
  · next hneg =>
      have hunit : 0 < 2 ^ (-exponent).toNat := Nat.pow_pos (by decide)
      rw [Int.toNat_of_nonpos hneg.le, Nat.pow_zero, Nat.mul_one] at h
      obtain rfl := Option.some.inj hceiling
      rw [Int.ofNat_le, ← Nat.lt_succ_iff, Nat.div_lt_iff_lt_mul hunit, Nat.succ_mul]
      omega
  · next hpos =>
      rw [Int.toNat_of_nonpos (by omega : -exponent ≤ 0), Nat.pow_zero, Nat.mul_one] at h
      obtain rfl := Option.some.inj hceiling
      exact Int.ofNat_le.2 h

/-- A significand that is carried to one bit more stands for the same number. -/
theorem carry_le {bound : Nat} {exponent : Int}
    (h : 2 ^ 53 * 2 ^ exponent.toNat ≤ bound * 2 ^ (-exponent).toNat) :
    2 ^ 52 * 2 ^ (exponent + 1).toNat ≤ bound * 2 ^ (-(exponent + 1)).toNat := by
  by_cases hneg : exponent < 0
  · have hunit : 2 ^ (-exponent).toNat = 2 ^ (-(exponent + 1)).toNat * 2 := by
      rw [← Nat.pow_succ]
      congr 1
      omega
    rw [Int.toNat_of_nonpos hneg.le, hunit, ← Nat.mul_assoc] at h
    rw [Int.toNat_of_nonpos (by omega : exponent + 1 ≤ 0)]
    omega
  · have hunit : 2 ^ (exponent + 1).toNat = 2 ^ exponent.toNat * 2 := by
      rw [← Nat.pow_succ]
      congr 1
      omega
    rw [Int.toNat_of_nonpos (by omega : -exponent ≤ 0)] at h
    rw [Int.toNat_of_nonpos (by omega : -(exponent + 1) ≤ 0), hunit]
    omega

theorem ceil?_ofQuotient_le {num den : Nat} (hnum : 0 < num) (hden : 0 < den)
    (hexact : num < 2 ^ 53) (hsmall : den < 2 ^ 53) {ceiling : Int}
    (hceiling : (ofQuotient false num den).ceil? = some ceiling) : ceiling ≤ num := by
  have hlog : num.log2 < 53 := (Nat.log2_lt hnum.ne').2 hexact
  have hexponent : exponentFor num den ≤ 0 := by
    have hguess := exponentFor_le num hsmall
    omega
  have hscaled : (scaled num den (exponentFor num den)).1 ≤
      num * 2 ^ (-exponentFor num den).toNat := by
    unfold scaled
    split
    · exact Nat.le_refl _
    · exact Nat.le_mul_of_pos_right _ (Nat.pow_pos (by decide))
  have hsignificand : roundDiv (scaled num den (exponentFor num den)).1
      (scaled num den (exponentFor num den)).2 * 2 ^ (exponentFor num den).toNat ≤
        num * 2 ^ (-exponentFor num den).toNat := by
    rw [Int.toNat_of_nonpos hexponent, Nat.pow_zero, Nat.mul_one]
    exact (roundDiv_le _ (scaled_pos num hden _)).trans hscaled
  unfold ofQuotient at hceiling
  rw [if_neg hnum.ne'] at hceiling
  simp only at hceiling
  split at hceiling
  · next hcarry =>
      rw [hcarry] at hsignificand
      rw [if_neg (by unfold maxExponent; omega)] at hceiling
      exact ceil?_finite_le (carry_le hsignificand) hceiling
  · rw [if_neg (by unfold maxExponent; omega)] at hceiling
    exact ceil?_finite_le hsignificand hceiling

/-! ## The ceiling of a quotient is exact -/

theorem scaled_of_nonpos (num den : Nat) {exponent : Int} (hexponent : exponent ≤ 0) :
    scaled num den exponent = (num * 2 ^ (-exponent).toNat, den) := by
  unfold scaled
  split
  · rfl
  · next hpos =>
      obtain rfl : exponent = 0 := by omega
      simp

theorem ceil?_finite_of_nonpos (significand : Nat) {exponent : Int} (hexponent : exponent ≤ 0) :
    (finite false significand exponent).ceil? =
      some (((significand + (2 ^ (-exponent).toNat - 1)) / 2 ^ (-exponent).toNat : Nat) : Int) := by
  by_cases hneg : exponent < 0
  · simp [ceil?, hneg]
  · obtain rfl : exponent = 0 := by omega
    simp [ceil?]

/-- A significand that is carried has the ceiling that it had before. -/
theorem ceil?_carry {exponent : Int} (hexponent : exponent ≤ 0) :
    (finite false (2 ^ 52) (exponent + 1)).ceil? = (finite false (2 ^ 53) exponent).ceil? := by
  by_cases hneg : exponent < 0
  · have hunit : 2 ^ (-exponent).toNat = 2 * 2 ^ (-(exponent + 1)).toNat := by
      rw [← Nat.pow_succ']
      congr 1
      omega
    have hpos : 0 < 2 ^ (-(exponent + 1)).toNat := Nat.pow_pos (by decide)
    rw [ceil?_finite_of_nonpos _ (by omega), ceil?_finite_of_nonpos _ hexponent, hunit, ← Nat.div_div_eq_div_mul]
    congr 3
    omega
  · obtain rfl : exponent = 0 := by omega
    decide

theorem roundDiv_le_of_le {num den bound : Nat} (hden : 0 < den) (h : num ≤ bound * den) :
    roundDiv num den ≤ bound := by
  have hdivision := Nat.div_add_mod num den
  have hlow : num / den ≤ bound := Nat.div_le_of_le_mul (by rwa [Nat.mul_comm])
  unfold roundDiv
  simp only
  rcases Nat.lt_or_eq_of_le hlow with hless | heq
  · split
    · omega
    · split
      · omega
      · split <;> omega
  · have hrest : num % den = 0 := by
      rw [heq, Nat.mul_comm] at hdivision
      omega
    rw [if_pos (by omega)]
    exact hlow

/-- What is more than half a unit above an integer is rounded past it. -/
theorem lt_roundDiv {num den bound : Nat} (hden : 0 < den) (h : (2 * bound + 1) * den < 2 * num) :
    bound < roundDiv num den := by
  have hdivision := Nat.div_add_mod num den
  have hexpand : (2 * bound + 1) * den = 2 * (den * bound) + den := by ring
  have hlow : bound ≤ num / den := (Nat.le_div_iff_mul_le hden).2 (by rw [Nat.mul_comm]; omega)
  unfold roundDiv
  simp only
  rcases Nat.lt_or_eq_of_le hlow with hless | heq
  · split
    · exact hless
    · split
      · omega
      · split <;> omega
  · rw [← heq] at hdivision ⊢
    rw [if_neg (by omega), if_pos (by omega)]
    exact Nat.lt_succ_self _

theorem lt_two_mul_unit {num den : Nat} (hnum : 0 < num) (hexact : num < 2 ^ 53) (hsmall : den < 2 ^ 53) :
    exponentFor num den ≤ 0 ∧ den < 2 * 2 ^ (-exponentFor num den).toNat := by
  have hlog : num.log2 < 53 := (Nat.log2_lt hnum.ne').2 hexact
  have hexponent := exponentFor_le num hsmall
  refine ⟨by omega, ?_⟩
  calc den < 2 ^ (den.log2 + 1) := Nat.lt_log2_self
    _ ≤ 2 ^ ((-exponentFor num den).toNat + 1) := Nat.pow_le_pow_right (by decide) (by omega)
    _ = 2 * 2 ^ (-exponentFor num den).toNat := by rw [Nat.pow_succ, Nat.mul_comm]

/-- The ceiling of a quotient is that of the fraction, where dividend and divisor need no rounding: the quotient is
rounded no further up than to the next integer, and not down to the one below. -/
theorem ceil?_ofQuotient_eq {num den : Nat} (hnum : 0 < num) (hden : 0 < den) (hexact : num < 2 ^ 53)
    (hsmall : den < 2 ^ 53) :
    (ofQuotient false num den).ceil? = some (((num + (den - 1)) / den : Nat) : Int) := by
  obtain ⟨hexponent, hbits⟩ := lt_two_mul_unit hnum hexact hsmall
  have hsame : (ofQuotient false num den).ceil? = (finite false (roundDiv (num * 2 ^ (-exponentFor num den).toNat) den)
      (exponentFor num den)).ceil? := by
    unfold ofQuotient
    rw [if_neg hnum.ne']
    simp only [scaled_of_nonpos num den hexponent]
    split
    · next hcarry =>
        rw [if_neg (by unfold maxExponent; omega), hcarry]
        exact ceil?_carry hexponent
    · rw [if_neg (by unfold maxExponent; omega)]
  rw [hsame, ceil?_finite_of_nonpos _ hexponent]
  generalize (-exponentFor num den).toNat = shift at hbits ⊢
  have hunit : 0 < 2 ^ shift := Nat.pow_pos (by decide)
  generalize 2 ^ shift = unit at hbits hunit ⊢
  obtain ⟨below, hceiling⟩ : ∃ below, (num + (den - 1)) / den = below + 1 :=
    Nat.exists_eq_succ_of_ne_zero (Nat.div_pos (by omega) hden).ne'
  -- `num` lies above `below * den` and not above `(below + 1) * den`
  have hdivision := Nat.div_add_mod (num + (den - 1)) den
  have hrest := Nat.mod_lt (num + (den - 1)) hden
  rw [hceiling, Nat.mul_succ] at hdivision
  have habove : den * below + 1 ≤ num := by omega
  have hunder : num ≤ den * below + den := by omega
  have hhigh : roundDiv (num * unit) den ≤ below * unit + unit := by
    refine roundDiv_le_of_le hden ?_
    calc num * unit ≤ (den * below + den) * unit := Nat.mul_le_mul_right _ hunder
      _ = (below * unit + unit) * den := by ring
  have hlow : below * unit < roundDiv (num * unit) den := by
    refine lt_roundDiv hden ?_
    calc (2 * (below * unit) + 1) * den = 2 * (den * below * unit) + den := by ring
      _ < 2 * (den * below * unit) + 2 * unit := by omega
      _ = 2 * ((den * below + 1) * unit) := by ring
      _ ≤ 2 * (num * unit) := Nat.mul_le_mul_left _ (Nat.mul_le_mul_right _ habove)
  generalize roundDiv (num * unit) den = significand at hhigh hlow
  rw [hceiling]
  congr 2
  refine Nat.div_eq_of_lt_le ?_ ?_
  · rw [Nat.succ_mul]
    omega
  · rw [Nat.succ_mul, Nat.succ_mul]
    omega

end ScriptSplit.Double
