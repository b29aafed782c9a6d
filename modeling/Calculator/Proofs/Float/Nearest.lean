import Calculator.Proofs.Float.Bits
import Calculator.Proofs.Number.Value

/-!
# The nearest float

`nearestBits` depends on the fraction and not on how it is written, it gives back the magnitude of a
float for the exact value of the float, and it is monotone at its ends: fractions far below the
smallest float give zero, fractions past the largest one give an infinity.
-/

namespace Calculator

theorem nearestBits_le (num den : Nat) : nearestBits num den ≤ infinityBits := by
  unfold nearestBits
  split
  · exact Nat.zero_le _
  · exact Nat.min_le_right _ _

/-- The unit in the last place of the float nearest to a positive number. -/
def unitOf (x : ℚ) : Int := max (Int.log 2 x - 52) (-1074)

theorem nearestBits_eq {num den : Nat} (hn : 0 < num) (hd : 0 < den) :
    nearestBits num den =
      min ((unitOf ((num : ℚ) / den) + 1074).toNat * twos 52 +
        roundHalfEven (num * twos (-unitOf ((num : ℚ) / den)))
          (den * twos (unitOf ((num : ℚ) / den)))) infinityBits := by
  simp only [nearestBits, if_neg hn.ne', leadingBinaryPlace_eq hn hd, unitOf]

theorem scaled_twos_neg (num den : Nat) (e : Int) :
    ((num * twos (-e) : Nat) : ℚ) / (den * twos e : Nat) = num / den * 2 ^ (-e) := by
  have h := scaled_twos num den (-e)
  rwa [neg_neg] at h

theorem nearestBits_congr {a b c d : Nat} (hb : 0 < b) (hd : 0 < d)
    (h : (a : ℚ) / b = (c : ℚ) / d) : nearestBits a b = nearestBits c d := by
  have hcross := cross_eq_of_div_eq hb hd h
  rcases Nat.eq_zero_or_pos a with ha | ha
  · have hc : c = 0 := by
      rw [ha, Nat.zero_mul] at hcross
      exact (Nat.mul_eq_zero.1 hcross.symm).resolve_right hb.ne'
    rw [ha, hc, nearestBits, nearestBits, if_pos rfl, if_pos rfl]
  · have hc : 0 < c := by
      refine Nat.pos_of_ne_zero fun hc => ?_
      rw [hc, Nat.zero_mul] at hcross
      have := Nat.mul_pos ha hd
      omega
    rw [nearestBits_eq ha hb, nearestBits_eq hc hd, h]
    congr 2
    apply roundHalfEven_congr (Nat.mul_pos hb (twos_pos _)) (Nat.mul_pos hd (twos_pos _))
    rw [scaled_twos_neg, scaled_twos_neg, h]

theorem floatNearest_congr {negative : Bool} {a b c d : Nat} (hb : 0 < b) (hd : 0 < d)
    (h : (a : ℚ) / b = (c : ℚ) / d) : floatNearest negative a b = floatNearest negative c d := by
  rw [floatNearest, floatNearest, nearestBits_congr hb hd h]

theorem ofFloat_eq (v : Float) : Binary.ofFloat v =
    { negative := signBit v
      significand := if magnitudeBits v / 2 ^ 52 = 0 then magnitudeBits v % 2 ^ 52
        else 2 ^ 52 + magnitudeBits v % 2 ^ 52
      exponent := (max (magnitudeBits v / 2 ^ 52) 1 : Nat) - 1075 } := by
  have hv := v.toBits.toNat_lt
  have hm : v.toBits.toNat % 2 ^ 63 % 2 ^ 52 = v.toBits.toNat % 2 ^ 52 := by omega
  have he : v.toBits.toNat % 2 ^ 63 / 2 ^ 52 = v.toBits.toNat / 2 ^ 52 % 2 ^ 11 := by omega
  simp only [Binary.ofFloat, magnitudeBits, signBit, twos_63, hm, he]
  rfl

/-- A fraction `s · 2 ^ e` whose significand has 53 digits, or fewer at the smallest exponent, is
nearest to the float with these fields. -/
theorem nearestBits_of_fields {num den s : Nat} {e : Int} (hs : 0 < s) (hlt : s < 2 ^ 53)
    (hd : 0 < den) (h : (num : ℚ) / den = s * 2 ^ e) (he : -1074 ≤ e)
    (hlow : s < 2 ^ 52 → e = -1074) :
    nearestBits num den = min ((e + 1074).toNat * 2 ^ 52 + s) infinityBits := by
  have hsq : (0 : ℚ) < s := by exact_mod_cast hs
  have htwo : (0 : ℚ) < 2 := by norm_num
  have hn : 0 < num := by
    refine Nat.pos_of_ne_zero fun hn => ?_
    rw [hn, Nat.cast_zero, zero_div] at h
    exact absurd h.symm (mul_pos hsq (zpow_pos htwo e)).ne'
  have hunit : unitOf ((num : ℚ) / den) = e := by
    rw [unitOf, h]
    have hpos := mul_pos hsq (zpow_pos htwo e)
    rcases Nat.lt_or_ge s (2 ^ 52) with hsmall | hlarge
    · have hlog : Int.log 2 ((s : ℚ) * 2 ^ e) < 52 + e := by
        rw [← Int.lt_zpow_iff_log_lt (by decide) hpos, Nat.cast_ofNat, zpow_add₀ htwo.ne']
        exact mul_lt_mul_of_pos_right (by exact_mod_cast hsmall) (zpow_pos htwo e)
      have hexp := hlow hsmall
      omega
    · have hlog : Int.log 2 ((s : ℚ) * 2 ^ e) = 52 + e := by
        apply log_eq_of_bracket (by decide)
        · rw [Nat.cast_ofNat, zpow_add₀ htwo.ne']
          exact mul_le_mul_of_nonneg_right (by exact_mod_cast hlarge) (zpow_pos htwo e).le
        · rw [Nat.cast_ofNat, show 52 + e + 1 = 53 + e by ring, zpow_add₀ htwo.ne']
          exact mul_lt_mul_of_pos_right (by exact_mod_cast hlt) (zpow_pos htwo e)
      omega
  rw [nearestBits_eq hn hd, hunit]
  congr 2
  apply roundHalfEven_of_eq (Nat.mul_pos hd (twos_pos _))
  rw [scaled_twos_neg, h, mul_assoc, ← zpow_add₀ htwo.ne', add_neg_cancel, zpow_zero, mul_one]

/-- The float nearest to the exact value of a finite float is that float. -/
theorem floatNearest_ofFloat {v : Float} (hv : v.isFinite = true) :
    floatNearest (Binary.ofFloat v).negative (Binary.ofFloat v).numerator
      (Binary.ofFloat v).denominator = v := by
  have hfin := (isFinite_iff v).1 hv
  have hbits : nearestBits (Binary.ofFloat v).numerator (Binary.ofFloat v).denominator =
      magnitudeBits v := by
    have hden := (Binary.ofFloat v).denominator_pos
    have hvalue := (Binary.ofFloat v).fraction_eq
    have hinf : infinityBits = 2047 * 2 ^ 52 := rfl
    rw [ofFloat_eq v] at hvalue hden ⊢
    generalize magnitudeBits v = m at *
    by_cases hzero : m / 2 ^ 52 = 0
    · simp only [if_pos hzero] at hvalue hden ⊢
      rcases Nat.eq_zero_or_pos m with rfl | hm
      · simp [nearestBits, Binary.numerator]
      · rw [nearestBits_of_fields (by omega) (by omega) hden hvalue (by omega) (by omega)]
        omega
    · simp only [if_neg hzero] at hvalue hden ⊢
      rw [nearestBits_of_fields (by omega) (by omega) hden hvalue (by omega) (by omega)]
      omega
  rw [floatNearest, hbits, ofFloat_eq]
  exact floatOfBits_bits hfin.le

end Calculator
