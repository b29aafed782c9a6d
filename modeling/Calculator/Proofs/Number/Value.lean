import Calculator.Number.Decimal
import Mathlib.Data.Int.Log
import Mathlib.Data.Rat.Floor
import Mathlib.Tactic.FieldSimp
import Mathlib.Tactic.Ring
import Mathlib.Tactic.Linarith
import Mathlib.Tactic.Positivity

/-!
# Values as rational numbers

A fraction of natural numbers written with `twos` or `tens` is a rational number times a power of
two or ten. The decimal and the binary place of the leading digit are logarithms of that number.
-/

namespace Calculator

theorem pow_toNat_div (b : ℕ) (e : Int) :
    ((Nat.pow b e.toNat : ℕ) : ℚ) / (Nat.pow b (-e).toNat : ℕ) = (b : ℚ) ^ e := by
  simp only [Nat.pow_eq, Nat.cast_pow]
  rcases Int.le_total 0 e with h | h
  · rw [Int.toNat_of_nonpos (by omega : -e ≤ 0), pow_zero, div_one, ← zpow_natCast,
      Int.toNat_of_nonneg h]
  · rw [Int.toNat_of_nonpos h, pow_zero, one_div, ← zpow_natCast,
      Int.toNat_of_nonneg (by omega), zpow_neg, inv_inv]

theorem twos_div_twos (e : Int) : (twos e : ℚ) / twos (-e) = 2 ^ e := pow_toNat_div 2 e

theorem tens_div_tens (e : Int) : (tens e : ℚ) / tens (-e) = 10 ^ e := pow_toNat_div 10 e

theorem cast_twos_pos (e : Int) : (0 : ℚ) < twos e := by exact_mod_cast twos_pos e

theorem cast_tens_pos (e : Int) : (0 : ℚ) < tens e := by exact_mod_cast tens_pos e

theorem scaled_twos (num den : Nat) (e : Int) :
    ((num * twos e : Nat) : ℚ) / (den * twos (-e) : Nat) = num / den * 2 ^ e := by
  rw [← twos_div_twos, Nat.cast_mul, Nat.cast_mul, mul_div_mul_comm]

theorem Decimal.fraction_eq (d : Decimal) :
    (d.numerator : ℚ) / d.denominator = d.coefficient * 10 ^ d.exponent := by
  rw [numerator, denominator, ← tens_div_tens, Nat.cast_mul, mul_div_assoc]

theorem Binary.fraction_eq (b : Binary) :
    (b.numerator : ℚ) / b.denominator = b.significand * 2 ^ b.exponent := by
  rw [numerator, denominator, ← twos_div_twos, Nat.cast_mul, mul_div_assoc]

theorem div_eq_quotient_add (num : Nat) {den : Nat} (hd : 0 < den) :
    (num : ℚ) / den = (num / den : Nat) + ((num % den : Nat) : ℚ) / den := by
  have hdq : (0 : ℚ) < den := by exact_mod_cast hd
  have hnum : (num : ℚ) = den * (num / den : Nat) + (num % den : Nat) := by
    exact_mod_cast (Nat.div_add_mod num den).symm
  rw [div_eq_iff hdq.ne', add_mul, div_mul_cancel₀ _ hdq.ne']
  linarith

theorem cross_eq_of_div_eq {a b c d : Nat} (hb : 0 < b) (hd : 0 < d)
    (h : (a : ℚ) / b = (c : ℚ) / d) : a * d = c * b := by
  rw [div_eq_div_iff (by exact_mod_cast hb.ne') (by exact_mod_cast hd.ne')] at h
  exact_mod_cast h

theorem natCast_eq_of_abs_sub_lt {m n : Nat} (h : |(m : ℚ) - n| < 1) : m = n := by
  have hint : |(m : Int) - n| < 1 := by exact_mod_cast h
  have := Int.abs_lt_one_iff.1 hint
  omega

theorem roundHalfEven_scale (num den : Nat) {k : Nat} (hk : 0 < k) :
    roundHalfEven (num * k) (den * k) = roundHalfEven num den := by
  simp only [roundHalfEven, Nat.mul_div_mul_right _ _ hk, Nat.mul_mod_mul_right]
  have hlt : den * k < 2 * (num % den * k) ↔ den < 2 * (num % den) := by
    rw [← Nat.mul_assoc]
    exact Nat.mul_lt_mul_right hk
  have heq : 2 * (num % den * k) = den * k ↔ 2 * (num % den) = den := by
    rw [← Nat.mul_assoc]
    exact Nat.mul_left_inj hk.ne'
  simp only [hlt, heq]

/-- Rounding depends on the fraction only. -/
theorem roundHalfEven_congr {a b c d : Nat} (hb : 0 < b) (hd : 0 < d)
    (h : (a : ℚ) / b = (c : ℚ) / d) : roundHalfEven a b = roundHalfEven c d := by
  rw [← roundHalfEven_scale a b hd, ← roundHalfEven_scale c d hb, cross_eq_of_div_eq hb hd h,
    Nat.mul_comm d b]

theorem roundHalfEven_mul_right (n : Nat) {den : Nat} (hd : 0 < den) :
    roundHalfEven (n * den) den = n := by
  simp [roundHalfEven, Nat.mul_div_cancel _ hd, hd.ne]

theorem roundHalfEven_of_eq {num den n : Nat} (hd : 0 < den) (h : (num : ℚ) / den = n) :
    roundHalfEven num den = n := by
  rw [roundHalfEven_congr hd Nat.one_pos (by simpa using h)]
  simpa using roundHalfEven_mul_right n Nat.one_pos

/-- The logarithm of a positive number is the only exponent that brackets it. -/
theorem log_eq_of_bracket {b : Nat} (hb : 1 < b) {x : ℚ} {p : Int} (hlo : (b : ℚ) ^ p ≤ x)
    (hhi : x < (b : ℚ) ^ (p + 1)) : Int.log b x = p := by
  have hpos : 0 < x := lt_of_lt_of_le (zpow_pos (by exact_mod_cast (by omega : 0 < b)) p) hlo
  have hle := (Int.zpow_le_iff_le_log hb hpos).1 hlo
  have hlt := (Int.lt_zpow_iff_log_lt hb hpos).1 hhi
  omega

theorem zpow_le_div_iff {num den : Nat} (hd : 0 < den) (p : Int) :
    (2 : ℚ) ^ p ≤ (num : ℚ) / den ↔ den * twos p ≤ num * twos (-p) := by
  rw [← twos_div_twos, div_le_div_iff₀ (cast_twos_pos _) (by exact_mod_cast hd), mul_comm]
  exact_mod_cast Iff.rfl

theorem bracket_log2 {n : Nat} (hn : 0 < n) :
    (2 : ℚ) ^ (n.log2 : Int) ≤ n ∧ (n : ℚ) < 2 ^ ((n.log2 : Int) + 1) := by
  have hlo := Nat.log2_self_le hn.ne'
  have hhi := @Nat.lt_log2_self n
  constructor
  · rw [zpow_natCast]
    exact_mod_cast hlo
  · rw [← Nat.cast_succ, zpow_natCast]
    exact_mod_cast hhi

theorem leadingBinaryPlace_eq {num den : Nat} (hn : 0 < num) (hd : 0 < den) :
    leadingBinaryPlace num den = Int.log 2 ((num : ℚ) / den) := by
  have hdq : (0 : ℚ) < den := by exact_mod_cast hd
  have htwo : (0 : ℚ) < 2 := by norm_num
  obtain ⟨hnlo, hnhi⟩ := bracket_log2 hn
  obtain ⟨hdlo, hdhi⟩ := bracket_log2 hd
  -- the fraction lies within one binary place of the difference of the logarithms
  have hlo : (2 : ℚ) ^ ((num.log2 : Int) - den.log2 - 1) ≤ num / den := by
    rw [le_div_iff₀ hdq]
    calc (2 : ℚ) ^ ((num.log2 : Int) - den.log2 - 1) * den
        ≤ 2 ^ ((num.log2 : Int) - den.log2 - 1) * 2 ^ ((den.log2 : Int) + 1) :=
        mul_le_mul_of_nonneg_left hdhi.le (zpow_pos htwo _).le
      _ = 2 ^ (num.log2 : Int) := by
        rw [← zpow_add₀ htwo.ne']
        congr 1
        ring
      _ ≤ num := hnlo
  have hhi : (num : ℚ) / den < 2 ^ ((num.log2 : Int) - den.log2 + 1) := by
    rw [div_lt_iff₀ hdq]
    calc (num : ℚ) < 2 ^ ((num.log2 : Int) + 1) := hnhi
      _ = 2 ^ ((num.log2 : Int) - den.log2 + 1) * 2 ^ (den.log2 : Int) := by
        rw [← zpow_add₀ htwo.ne']
        congr 1
        ring
      _ ≤ 2 ^ ((num.log2 : Int) - den.log2 + 1) * den :=
        mul_le_mul_of_nonneg_left hdlo (zpow_pos htwo _).le
  symm
  simp only [leadingBinaryPlace]
  split
  · next h => exact log_eq_of_bracket (by decide) ((zpow_le_div_iff hd _).2 h) hhi
  · next h =>
    rw [← zpow_le_div_iff hd, not_le] at h
    refine log_eq_of_bracket (by decide) hlo ?_
    rwa [show (num.log2 : Int) - den.log2 - 1 + 1 = num.log2 - den.log2 by ring]

end Calculator
