import Calculator.Number.Shortest
import Calculator.Proofs.Float.Nearest

/-!
# Decimals and floats

Reading a decimal as a float depends on its sign and its value, so the places it is written with do
not matter. The decimal under which a float is written reads back as the float.
-/

namespace Calculator

def Decimal.magnitude (d : Decimal) : ℚ := d.coefficient * 10 ^ d.exponent

theorem roundHalfEven_of_lt_half {num den : Nat} (hd : 0 < den)
    (h : (num : ℚ) / den < 1 / 2) : roundHalfEven num den = 0 := by
  have hlt : 2 * num < den := by
    rw [div_lt_div_iff₀ (by exact_mod_cast hd) (by norm_num)] at h
    have hnat : num * 2 < 1 * den := by exact_mod_cast h
    omega
  simp only [roundHalfEven, Nat.div_eq_of_lt (show num < den by omega),
    Nat.mod_eq_of_lt (show num < den by omega)]
  exact if_neg (by omega)

/-- Half of the smallest float is not reached, so the nearest float is zero. -/
theorem nearestBits_of_lt {num den : Nat} (hd : 0 < den)
    (h : (num : ℚ) / den < 2 ^ (-1075 : Int)) : nearestBits num den = 0 := by
  rcases Nat.eq_zero_or_pos num with rfl | hn
  · simp [nearestBits]
  · have htwo : (0 : ℚ) < 2 := by norm_num
    have hpos : 0 < (num : ℚ) / den := div_pos (by exact_mod_cast hn) (by exact_mod_cast hd)
    have hlog : Int.log 2 ((num : ℚ) / den) < -1075 := (Int.lt_zpow_iff_log_lt (by decide) hpos).1 h
    have hunit : unitOf ((num : ℚ) / den) = -1074 := by
      rw [unitOf]
      omega
    have hround : roundHalfEven (num * twos (-(-1074))) (den * twos (-1074)) = 0 := by
      apply roundHalfEven_of_lt_half (Nat.mul_pos hd (twos_pos _))
      rw [scaled_twos_neg]
      calc (num : ℚ) / den * 2 ^ (-(-1074) : Int) < 2 ^ (-1075 : Int) * 2 ^ (-(-1074) : Int) :=
            mul_lt_mul_of_pos_right h (zpow_pos htwo _)
        _ = 1 / 2 := by
          rw [← zpow_add₀ htwo.ne']
          norm_num
    rw [nearestBits_eq hn hd, hunit, hround]
    rfl

theorem le_roundHalfEven (num den : Nat) : num / den ≤ roundHalfEven num den := by
  unfold roundHalfEven
  dsimp only
  split <;> omega

/-- From `2 ^ 1024` on, the nearest float is an infinity. -/
theorem nearestBits_of_ge {num den : Nat} (hd : 0 < den)
    (h : (2 : ℚ) ^ (1024 : Int) ≤ (num : ℚ) / den) : nearestBits num den = infinityBits := by
  have htwo : (0 : ℚ) < 2 := by norm_num
  have hpos : 0 < (num : ℚ) / den := lt_of_lt_of_le (zpow_pos htwo _) h
  have hn : 0 < num := by
    refine Nat.pos_of_ne_zero fun hn => ?_
    rw [hn, Nat.cast_zero, zero_div] at hpos
    exact absurd hpos (lt_irrefl _)
  have hlog : 1024 ≤ Int.log 2 ((num : ℚ) / den) := (Int.zpow_le_iff_le_log (by decide) hpos).1 h
  have hunit : unitOf ((num : ℚ) / den) = Int.log 2 ((num : ℚ) / den) - 52 := by
    rw [unitOf]
    omega
  have hself := Int.zpow_log_le_self (by decide : 1 < 2) hpos
  rw [nearestBits_eq hn hd, hunit]
  generalize Int.log 2 ((num : ℚ) / den) = p at *
  have hquot : 2 ^ 52 ≤ num * twos (-(p - 52)) / (den * twos (p - 52)) := by
    have hdpos : 0 < den * twos (p - 52) := Nat.mul_pos hd (twos_pos _)
    rw [Nat.le_div_iff_mul_le hdpos]
    have hscaled := scaled_twos_neg num den (p - 52)
    have hle : (2 : ℚ) ^ 52 ≤
        ((num * twos (-(p - 52)) : Nat) : ℚ) / (den * twos (p - 52) : Nat) := by
      rw [hscaled]
      calc (2 : ℚ) ^ 52 = 2 ^ p * 2 ^ (-(p - 52)) := by
            rw [← zpow_natCast, ← zpow_add₀ htwo.ne']
            congr 1
            push_cast
            ring
        _ ≤ _ := mul_le_mul_of_nonneg_right hself (zpow_pos htwo _).le
    rw [le_div_iff₀ (by exact_mod_cast hdpos)] at hle
    exact_mod_cast hle
  have hround := le_roundHalfEven (num * twos (-(p - 52))) (den * twos (p - 52))
  have hinf : infinityBits = 2047 * 2 ^ 52 := rfl
  have h52 : twos 52 = 2 ^ 52 := rfl
  rw [Nat.min_eq_right, hinf]
  have hmul : 2046 * 2 ^ 52 ≤ (p - 52 + 1074).toNat * twos 52 := by
    rw [h52]
    exact Nat.mul_le_mul_right _ (by omega)
  omega

theorem two_pow_le_ten_pow : (2 : ℚ) ^ (1200 : Int) ≤ 10 ^ (400 : Int) := by
  calc (2 : ℚ) ^ (1200 : Int) = ((2 : ℚ) ^ 3) ^ 400 := by rw [← pow_mul, ← zpow_natCast]; rfl
    _ ≤ 10 ^ 400 := pow_le_pow_left₀ (by norm_num) (by norm_num) 400
    _ = 10 ^ (400 : Int) := (zpow_natCast _ _).symm

theorem Decimal.magnitude_lt_ceiling (d : Decimal) : d.magnitude < 10 ^ d.ceilingPlace := by
  have hten : (0 : ℚ) < 10 := by norm_num
  have hlt : (d.coefficient : ℚ) < 10 ^ ((d.coefficient.log2 / 3 + 1 : Nat) : Int) := by
    rw [zpow_natCast]
    exact_mod_cast d.coefficient_lt
  rw [ceilingPlace, add_comm, zpow_add₀ hten.ne']
  exact mul_lt_mul_of_pos_right hlt (zpow_pos hten _)

theorem Decimal.floor_le_magnitude {d : Decimal} (h : d.coefficient ≠ 0) :
    10 ^ d.floorPlace ≤ d.magnitude := by
  have hten : (0 : ℚ) < 10 := by norm_num
  have hle : (10 : ℚ) ^ ((d.coefficient.log2 / 4 : Nat) : Int) ≤ d.coefficient := by
    rw [zpow_natCast]
    exact_mod_cast le_coefficient h
  rw [floorPlace, add_comm, zpow_add₀ hten.ne']
  exact mul_le_mul_of_nonneg_right hle (zpow_pos hten _).le

/-- The bounds that spare the powers of ten do not change what is read. -/
theorem Decimal.toFloat_eq (d : Decimal) :
    d.toFloat = floatNearest d.negative d.numerator d.denominator := by
  have hfraction : (d.numerator : ℚ) / d.denominator = d.magnitude := d.fraction_eq
  have hone : (1 : ℚ) ≤ 10 := by norm_num
  unfold toFloat
  split
  · next h =>
    rcases h with hzero | hsmall
    · rw [floatNearest, numerator, hzero, Nat.zero_mul, nearestBits, if_pos rfl]
    · rw [floatNearest, nearestBits_of_lt d.denominator_pos]
      rw [hfraction]
      calc d.magnitude < 10 ^ d.ceilingPlace := d.magnitude_lt_ceiling
        _ ≤ 10 ^ (-400 : Int) := zpow_le_zpow_right₀ hone (by omega)
        _ ≤ 2 ^ (-1200 : Int) := by
          rw [zpow_neg, zpow_neg]
          exact inv_anti₀ (zpow_pos (by norm_num) _) two_pow_le_ten_pow
        _ ≤ 2 ^ (-1075 : Int) := zpow_le_zpow_right₀ (by norm_num) (by norm_num)
  · next h =>
    split
    · next hlarge =>
      rw [floatNearest, nearestBits_of_ge d.denominator_pos]
      rw [hfraction]
      calc (2 : ℚ) ^ (1024 : Int) ≤ 2 ^ (1200 : Int) :=
            zpow_le_zpow_right₀ (by norm_num) (by norm_num)
        _ ≤ 10 ^ (400 : Int) := two_pow_le_ten_pow
        _ ≤ 10 ^ d.floorPlace := zpow_le_zpow_right₀ hone (by omega)
        _ ≤ d.magnitude := floor_le_magnitude (fun h0 => h (.inl h0))
    · rfl

theorem Decimal.toFloat_congr {d d' : Decimal} (hn : d.negative = d'.negative)
    (h : d.magnitude = d'.magnitude) : d.toFloat = d'.toFloat := by
  rw [toFloat_eq, toFloat_eq, hn]
  apply floatNearest_congr d.denominator_pos d'.denominator_pos
  rw [fraction_eq, fraction_eq]
  exact h

theorem Decimal.signBit_toFloat (d : Decimal) : signBit d.toFloat = d.negative := by
  rw [toFloat_eq, floatNearest, signBit_floatOfBits (nearestBits_le _ _)]

theorem Decimal.toFloat_le_infinity (d : Decimal) : magnitudeBits d.toFloat ≤ infinityBits := by
  rw [toFloat_eq, floatNearest, magnitudeBits_floatOfBits (nearestBits_le _ _)]
  exact nearestBits_le _ _

theorem Decimal.magnitude_withoutTrailingZeros (d : Decimal) :
    d.withoutTrailingZeros.magnitude = d.magnitude ∧
      d.withoutTrailingZeros.negative = d.negative := by
  fun_induction withoutTrailingZeros d with
  | case1 d h => exact ⟨rfl, rfl⟩
  | case2 d h ih =>
    refine ⟨ih.1.trans ?_, ih.2⟩
    have hten : (10 : ℚ) ≠ 0 := by norm_num
    have hdiv : d.coefficient = d.coefficient / 10 * 10 := by omega
    simp only [magnitude]
    conv_rhs => rw [hdiv]
    rw [zpow_add₀ hten, zpow_one]
    push_cast
    ring

theorem Binary.magnitude_toDecimal (b : Binary) :
    b.toDecimal.magnitude = (b.numerator : ℚ) / b.denominator ∧
      b.toDecimal.negative = b.negative := by
  unfold toDecimal
  split
  · next h =>
    refine ⟨?_, rfl⟩
    simp only [Decimal.magnitude, denominator, twos_of_nonpos (show -b.exponent ≤ 0 by omega)]
    simp
  · next h =>
    refine ⟨?_, rfl⟩
    rw [fraction_eq]
    simp only [Decimal.magnitude, Nat.pow_eq]
    have hexp : b.exponent = -((-b.exponent).toNat : Int) := by omega
    generalize (-b.exponent).toNat = k at *
    rw [hexp, zpow_neg, zpow_neg, zpow_natCast, zpow_natCast]
    push_cast
    rw [show (10 : ℚ) = 5 * 2 by norm_num, mul_pow]
    field_simp

theorem Decimal.magnitude_tenths {d : Decimal} (h : 0 ≤ d.exponent) :
    ({ d with coefficient := d.coefficient * tens (d.exponent + 1), exponent := -1 } :
      Decimal).magnitude = d.magnitude := by
  have hten : (10 : ℚ) ≠ 0 := by norm_num
  have htens : (tens (d.exponent + 1) : ℚ) = 10 ^ (d.exponent + 1) := by
    rw [← tens_div_tens, tens_of_nonpos (e := -(d.exponent + 1)) (by omega), Nat.cast_one, div_one]
  simp only [magnitude, Nat.cast_mul, htens]
  rw [mul_assoc, ← zpow_add₀ hten, add_neg_cancel_right]

theorem Decimal.denotes_iff {d : Decimal} {v : Float} : d.denotes v = true ↔ d.toFloat = v := by
  rw [denotes, beq_iff_eq, Float.toBits_inj]

theorem Binary.toFloat_toDecimal {v : Float} (hv : v.isFinite = true) :
    (Binary.ofFloat v).toDecimal.toFloat = v := by
  obtain ⟨hmag, hneg⟩ := (Binary.ofFloat v).magnitude_toDecimal
  rw [Decimal.toFloat_eq, hneg]
  refine Eq.trans ?_ (floatNearest_ofFloat hv)
  apply floatNearest_congr (Decimal.denominator_pos _) (Binary.ofFloat v).denominator_pos
  rw [Decimal.fraction_eq]
  exact hmag

/-- The shortest decimal reads back; where no candidate did, the exact value would stand. -/
theorem toFloat_shortestDecimal {v : Float} (hv : v.isFinite = true) :
    (shortestDecimal v).toFloat = v := by
  have hstrip (d : Decimal) (h : d.toFloat = v) : d.withoutTrailingZeros.toFloat = v := by
    obtain ⟨hmag, hneg⟩ := d.magnitude_withoutTrailingZeros
    rw [Decimal.toFloat_congr hneg hmag, h]
  unfold shortestDecimal
  apply hstrip
  cases hfind : List.find? _ _ with
  | none => exact Binary.toFloat_toDecimal hv
  | some d =>
    have hdenotes := List.find?_some hfind
    exact Decimal.denotes_iff.1 hdenotes

/-- The decimal under which a finite float is written reads back as the float. -/
theorem toFloat_ofFloat {v : Float} (hv : v.isFinite = true) :
    (Decimal.ofFloat v).toFloat = v := by
  simp only [Decimal.ofFloat]
  split
  · next hzero =>
    have hnum : (Binary.ofFloat v).numerator = 0 := by
      rw [Binary.numerator, beq_iff_eq.1 hzero, Nat.zero_mul]
    have hv' := floatNearest_ofFloat hv
    rw [hnum] at hv'
    rw [Decimal.toFloat_eq, Decimal.numerator, Nat.zero_mul]
    rw [floatNearest, nearestBits, if_pos rfl] at hv' ⊢
    exact hv'
  · split
    · next h =>
      refine Eq.trans ?_ (toFloat_shortestDecimal hv)
      exact Decimal.toFloat_congr rfl (Decimal.magnitude_tenths h.1)
    · exact toFloat_shortestDecimal hv

theorem mapDecimal_eq {v : Float} (hv : v.isFinite = true) (f : Decimal → Decimal) :
    mapDecimal f v = (f (Decimal.ofFloat v)).toFloat := by
  simp only [mapDecimal]
  split
  · next h => rw [h, toFloat_ofFloat hv]
  · rfl

theorem negative_ofFloat {v : Float} (hv : v.isFinite = true) :
    (Decimal.ofFloat v).negative = signBit v := by
  rw [← Decimal.signBit_toFloat, toFloat_ofFloat hv]

end Calculator
