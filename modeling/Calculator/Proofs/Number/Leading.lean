import Calculator.Proofs.Float.Decimals

/-!
# Leading places

The leading place of a number brackets it between two powers of ten.
-/

namespace Calculator

namespace Decimal

theorem lt_pow_digitCount (n : Nat) : n < tens (digitCount n) :=
  (digitCount_le_iff (digitCount_pos n)).1 (Nat.le_refl _)

theorem pow_digitCount_le {n : Nat} (hn : n ≠ 0) : tens (digitCount n - 1 : Nat) ≤ n := by
  rcases Nat.lt_or_ge (digitCount n) 2 with hlt | hge
  · rw [show digitCount n - 1 = 0 by omega]
    exact Nat.pos_of_ne_zero hn
  · have hnot : ¬digitCount n ≤ digitCount n - 1 := by omega
    rw [digitCount_le_iff (by omega)] at hnot
    exact Nat.not_lt.1 hnot

theorem cast_tens_natCast (k : Nat) : (tens k : ℚ) = 10 ^ (k : Int) := by
  rw [zpow_natCast]
  exact_mod_cast rfl

theorem magnitude_lt_leading (d : Decimal) : d.magnitude < 10 ^ (d.leadingPlace + 1) := by
  have hten : (0 : ℚ) < 10 := by norm_num
  have hlt : (d.coefficient : ℚ) < 10 ^ (digitCount d.coefficient : Int) := by
    rw [← cast_tens_natCast]
    exact_mod_cast lt_pow_digitCount d.coefficient
  rw [show d.leadingPlace + 1 = digitCount d.coefficient + d.exponent by rw [leadingPlace]; ring,
    zpow_add₀ hten.ne']
  exact mul_lt_mul_of_pos_right hlt (zpow_pos hten _)

theorem leading_le_magnitude {d : Decimal} (h : d.coefficient ≠ 0) :
    10 ^ d.leadingPlace ≤ d.magnitude := by
  have hten : (0 : ℚ) < 10 := by norm_num
  have hpos := digitCount_pos d.coefficient
  have hle : (10 : ℚ) ^ ((digitCount d.coefficient - 1 : Nat) : Int) ≤ d.coefficient := by
    rw [← cast_tens_natCast]
    exact_mod_cast pow_digitCount_le h
  rw [show d.leadingPlace = (digitCount d.coefficient - 1 : Nat) + d.exponent by
    rw [leadingPlace]; omega, zpow_add₀ hten.ne']
  exact mul_le_mul_of_nonneg_right hle (zpow_pos hten _).le

theorem isNegligible_iff (d : Decimal) :
    d.isNegligible = true ↔ d.magnitude < 10 ^ (-10 : Int) := by
  have hten : (0 : ℚ) < 10 := by norm_num
  have hscaled : (d.coefficient : ℚ) * tens (d.exponent + 10) < tens (-(d.exponent + 10)) ↔
      (d.coefficient : ℚ) * 10 ^ (d.exponent + 10) < 1 := by
    rw [← tens_div_tens, ← mul_div_assoc, div_lt_one (cast_tens_pos _)]
  have hshift : (d.coefficient : ℚ) * 10 ^ (d.exponent + 10) = d.magnitude * 10 ^ (10 : Int) := by
    rw [magnitude, mul_assoc, ← zpow_add₀ hten.ne']
  rw [hshift, ← lt_div_iff₀ (zpow_pos hten _), one_div, ← zpow_neg] at hscaled
  rw [isNegligible, decide_eq_true_iff, ← hscaled]
  exact_mod_cast Iff.rfl

/-- A number that is not negligible has its first digit at the tenth decimal place or before. -/
theorem le_leadingPlace {d : Decimal} (h : d.isNegligible = false) : -10 ≤ d.leadingPlace := by
  have hle : (10 : ℚ) ^ (-10 : Int) ≤ d.magnitude := by
    rw [← not_lt, ← isNegligible_iff, h]
    exact Bool.false_ne_true
  have hlt := (zpow_lt_zpow_iff_right₀ (by norm_num : (1 : ℚ) < 10)).1
    (hle.trans_lt d.magnitude_lt_leading)
  omega

end Decimal

/-- The leading place of a fraction brackets it. -/
theorem leadingDecimalPlace_bracket {num den : Nat} (hn : 0 < num) (hd : 0 < den) :
    (10 : ℚ) ^ leadingDecimalPlace num den ≤ num / den ∧
      (num : ℚ) / den < 10 ^ (leadingDecimalPlace num den + 1) := by
  have hdq : (0 : ℚ) < den := by exact_mod_cast hd
  unfold leadingDecimalPlace
  split
  · next hle =>
    have hquot : num / den ≠ 0 := (Nat.div_pos hle hd).ne'
    obtain ⟨k, hk⟩ : ∃ k, digitCount (num / den) = k + 1 :=
      ⟨_, (Nat.succ_pred (digitCount_pos _).ne').symm⟩
    have hlo := Decimal.pow_digitCount_le hquot
    have hhi := Decimal.lt_pow_digitCount (num / den)
    rw [hk, Nat.add_sub_cancel, Nat.le_div_iff_mul_le hd] at hlo
    rw [hk, Nat.div_lt_iff_lt_mul hd] at hhi
    rw [hk, Nat.cast_succ, add_sub_cancel_right, ← Nat.cast_succ, ← Decimal.cast_tens_natCast,
      ← Decimal.cast_tens_natCast, le_div_iff₀ hdq, div_lt_iff₀ hdq]
    exact ⟨by exact_mod_cast hlo, by exact_mod_cast hhi⟩
  · next hlt =>
    have hquot : (den - 1) / num ≠ 0 := (Nat.div_pos (by omega) hn).ne'
    obtain ⟨k, hk⟩ : ∃ k, digitCount ((den - 1) / num) = k + 1 :=
      ⟨_, (Nat.succ_pred (digitCount_pos _).ne').symm⟩
    have hlo := Decimal.pow_digitCount_le hquot
    have hhi := Decimal.lt_pow_digitCount ((den - 1) / num)
    rw [hk, Nat.add_sub_cancel, Nat.le_div_iff_mul_le hn] at hlo
    rw [hk, Nat.div_lt_iff_lt_mul hn] at hhi
    rw [hk, show -((k + 1 : Nat) : Int) + 1 = -(k : Int) by push_cast; ring, zpow_neg, zpow_neg,
      ← Decimal.cast_tens_natCast, ← Decimal.cast_tens_natCast, inv_eq_one_div, inv_eq_one_div,
      div_le_div_iff₀ (cast_tens_pos _) hdq, div_lt_div_iff₀ hdq (cast_tens_pos _)]
    constructor
    · exact_mod_cast (by rw [mul_comm num]; omega : 1 * den ≤ num * tens (k + 1 : Nat))
    · exact_mod_cast (by rw [mul_comm num]; omega : num * tens k < 1 * den)

end Calculator
