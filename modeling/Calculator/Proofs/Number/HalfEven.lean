import Calculator.Number.Notation
import Calculator.Proofs.Number.Signed

/-!
# A half goes to the even neighbour

Quotients are rounded to the nearest whole number, and of two nearest ones to the even one. This
determines the result, and with it the decimal that shows an exact binary value with a fixed number
of places.
-/

namespace Calculator

/-- Of the whole numbers `n` is nearest to `x`, and even if another one is as near. -/
structure IsNearestEven (x : ℚ) (n : Nat) : Prop where
  close : |x - n| ≤ 1 / 2
  even : |x - n| = 1 / 2 → n % 2 = 0

theorem isNearestEven_roundHalfEven (num : Nat) {den : Nat} (hd : 0 < den) :
    IsNearestEven ((num : ℚ) / den) (roundHalfEven num den) := by
  have hdq : (0 : ℚ) < den := by exact_mod_cast hd
  refine ⟨?_, fun htie => ?_⟩
  · rw [abs_sub_comm]
    exact abs_roundHalfEven_sub_le num hd
  have hnonneg : (0 : ℚ) ≤ ((num % den : Nat) : ℚ) / den := by positivity
  have hlt : ((num % den : Nat) : ℚ) / den < 1 := by
    rw [div_lt_one hdq]
    exact_mod_cast Nat.mod_lt num hd
  -- at a tie the remainder is half of the denominator
  have hhalf (h : ((num % den : Nat) : ℚ) / den = 1 / 2) : 2 * (num % den) = den := by
    rw [div_eq_div_iff hdq.ne' two_ne_zero] at h
    exact_mod_cast (by linarith : 2 * ((num % den : Nat) : ℚ) = den)
  rw [div_eq_quotient_add num hd] at htie
  simp only [roundHalfEven] at htie ⊢
  split at htie
  · next hup =>
    rw [if_pos hup]
    push_cast at htie
    rw [abs_of_nonpos (by linarith)] at htie
    have := hhalf (by linarith)
    omega
  · next hdown =>
    rw [if_neg hdown]
    rw [abs_of_nonneg (by linarith)] at htie
    have := hhalf (by linarith)
    omega

theorem IsNearestEven.unique {x : ℚ} {m n : Nat} (hm : IsNearestEven x m)
    (hn : IsNearestEven x n) : m = n := by
  wlog hle : m ≤ n generalizing m n
  · exact (this hn hm (Nat.le_of_not_le hle)).symm
  have hmhi := (abs_le.1 hm.close).2
  have hnlo := (abs_le.1 hn.close).1
  rcases hle.eq_or_lt with heq | hlt
  · exact heq
  · have hnext : (m : ℚ) + 1 ≤ n := by exact_mod_cast hlt
    have hupper : (n : ℚ) < m + 1 + 1 := by linarith
    have hn1 : n = m + 1 := by
      have : n < m + 1 + 1 := by exact_mod_cast hupper
      omega
    -- between neighbours `x` lies halfway, and only one of them is even
    subst hn1
    push_cast at *
    have hmeven := hm.even (by rw [abs_of_nonneg (by linarith)]; linarith)
    have hneven := hn.even (by push_cast; rw [abs_of_nonpos (by linarith)]; linarith)
    omega

theorem roundHalfEven_eq_iff {num den n : Nat} (hd : 0 < den) :
    roundHalfEven num den = n ↔ IsNearestEven ((num : ℚ) / den) n := by
  constructor
  · rintro rfl
    exact isNearestEven_roundHalfEven num hd
  · exact (isNearestEven_roundHalfEven num hd).unique

theorem isNearestEven_of_abs_lt {x : ℚ} {n : Nat} (h : |x - n| < 1 / 2) : IsNearestEven x n :=
  ⟨h.le, fun heq => absurd heq h.ne⟩

namespace Binary

variable (b : Binary) (places : Nat)

theorem magnitude_nonneg : 0 ≤ b.magnitude :=
  mul_nonneg (Nat.cast_nonneg _) (zpow_pos two_pos _).le

theorem abs_value : |b.value| = b.magnitude := abs_signedValue b.magnitude_nonneg

theorem magnitude_eq_zero_iff : b.magnitude = 0 ↔ b.significand = 0 := by
  rw [magnitude, mul_eq_zero, or_iff_left (zpow_pos two_pos _).ne', Nat.cast_eq_zero]

theorem scaled_eq : ((b.numerator * tens places : Nat) : ℚ) / b.denominator =
    b.magnitude * 10 ^ (places : Int) := by
  rw [Nat.cast_mul, mul_div_right_comm, fraction_eq, magnitude, Decimal.cast_tens_natCast]

theorem magnitude_fixed :
    (b.fixed places).magnitude = (b.fixed places).coefficient * 10 ^ (-places : Int) := rfl

theorem coefficient_fixed_eq_iff {n : Nat} : (b.fixed places).coefficient = n ↔
    IsNearestEven (b.magnitude * 10 ^ (places : Int)) n := by
  rw [← scaled_eq]
  exact roundHalfEven_eq_iff b.denominator_pos

theorem abs_value_fixed_sub_le :
    |(b.fixed places).value - b.value| ≤ 10 ^ (-places : Int) / 2 := by
  have hunit : (0 : ℚ) < 10 ^ (-places : Int) := zpow_pos (by norm_num) _
  have hclose := ((b.coefficient_fixed_eq_iff places).1 rfl).close
  have hscale : b.magnitude = b.magnitude * 10 ^ (places : Int) * 10 ^ (-places : Int) := by
    rw [mul_assoc, ← zpow_add₀ (by norm_num), add_neg_cancel, zpow_zero, mul_one]
  have hvalue : |(b.fixed places).value - b.value| = |(b.fixed places).magnitude - b.magnitude| :=
    abs_signedValue_sub _ _ _
  calc |(b.fixed places).value - b.value|
      = |b.magnitude * 10 ^ (places : Int) - (b.fixed places).coefficient| *
          10 ^ (-places : Int) := by
        rw [hvalue, magnitude_fixed]
        conv_lhs => rw [hscale]
        rw [← sub_mul, abs_mul, abs_of_pos hunit, abs_sub_comm]
    _ ≤ 1 / 2 * 10 ^ (-places : Int) := mul_le_mul_of_nonneg_right hclose hunit.le
    _ = 10 ^ (-places : Int) / 2 := by ring

/-- A value of at most half a unit is shown as zero. -/
theorem coefficient_fixed_eq_zero_iff :
    (b.fixed places).coefficient = 0 ↔ b.magnitude ≤ 10 ^ (-places : Int) / 2 := by
  have hunit : (0 : ℚ) < 10 ^ (places : Int) := zpow_pos (by norm_num) _
  have hscaled : 0 ≤ b.magnitude * 10 ^ (places : Int) :=
    mul_nonneg b.magnitude_nonneg hunit.le
  have hhalf : (10 : ℚ) ^ (-places : Int) / 2 = 1 / 2 / 10 ^ (places : Int) := by
    rw [zpow_neg]
    ring
  rw [coefficient_fixed_eq_iff, hhalf, le_div_iff₀ hunit]
  constructor
  · intro h
    have hclose := h.close
    rwa [Nat.cast_zero, sub_zero, abs_of_nonneg hscaled] at hclose
  · intro h
    refine ⟨?_, fun _ => rfl⟩
    rwa [Nat.cast_zero, sub_zero, abs_of_nonneg hscaled]

end Binary

end Calculator
