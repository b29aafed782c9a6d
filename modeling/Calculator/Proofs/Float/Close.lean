import Calculator.Proofs.Float.Order

/-!
# What lies close to a float

A fraction that differs from a float by half a unit of its seventeenth digit or less is read as the
float, and no fraction from the next float on is.
-/

namespace Calculator

theorem abs_roundHalfEven_sub_le (num : Nat) {den : Nat} (hd : 0 < den) :
    |(roundHalfEven num den : ℚ) - num / den| ≤ 1 / 2 := by
  have hdq : (0 : ℚ) < den := by exact_mod_cast hd
  have hnonneg : (0 : ℚ) ≤ ((num % den : Nat) : ℚ) / den := by positivity
  rw [div_eq_quotient_add num hd, abs_le]
  simp only [roundHalfEven]
  split
  · next hup =>
    have hlt : ((num % den : Nat) : ℚ) < den := by exact_mod_cast Nat.mod_lt num hd
    have hle : (den : ℚ) ≤ 2 * (num % den : Nat) := by
      exact_mod_cast (by omega : den ≤ 2 * (num % den))
    have hhalf : 1 / 2 ≤ ((num % den : Nat) : ℚ) / den := by
      rw [div_le_div_iff₀ two_pos hdq]
      linarith
    have hone : ((num % den : Nat) : ℚ) / den < 1 := (div_lt_one hdq).2 hlt
    push_cast
    constructor <;> linarith
  · next hdown =>
    have hle : 2 * ((num % den : Nat) : ℚ) ≤ den := by
      exact_mod_cast (by omega : 2 * (num % den) ≤ den)
    have hhalf : ((num % den : Nat) : ℚ) / den ≤ 1 / 2 := by
      rw [div_le_div_iff₀ hdq two_pos]
      linarith
    constructor <;> linarith

theorem roundHalfEven_of_abs_lt {num den n : Nat} (hd : 0 < den)
    (h : |(num : ℚ) / den - n| < 1 / 2) : roundHalfEven num den = n := by
  have hround := abs_roundHalfEven_sub_le num hd
  apply natCast_eq_of_abs_sub_lt
  calc |(roundHalfEven num den : ℚ) - n|
      ≤ |(roundHalfEven num den : ℚ) - num / den| + |(num : ℚ) / den - n| :=
      abs_sub_le _ _ _
    _ < 1 := by linarith

def Binary.magnitude (b : Binary) : ℚ := b.significand * 2 ^ b.exponent

section

variable {v : Float}

/-- The significand of a float has 53 digits, or fewer at the smallest exponent. -/
theorem fields_ofFloat (v : Float) : (Binary.ofFloat v).significand < 2 ^ 53 ∧
    -1074 ≤ (Binary.ofFloat v).exponent ∧
    ((Binary.ofFloat v).significand < 2 ^ 52 → (Binary.ofFloat v).exponent = -1074) := by
  rw [ofFloat_eq]
  dsimp only
  split <;> refine ⟨?_, ?_, ?_⟩ <;> omega

theorem magnitudeBits_eq_fields (v : Float) :
    ((Binary.ofFloat v).exponent + 1074).toNat * 2 ^ 52 + (Binary.ofFloat v).significand =
      magnitudeBits v := by
  rw [ofFloat_eq]
  dsimp only
  split <;> omega

/-- A number with 53 binary digits in front of the place of a unit, or fewer at the smallest one,
has this unit. -/
theorem unitOf_mul_zpow {t : ℚ} {e : Int} (he : -1074 ≤ e) (ht : 0 < t) (hlt : t < 2 ^ 53)
    (hge : 2 ^ 52 ≤ t ∨ e = -1074) : unitOf (t * 2 ^ e) = e := by
  have htwo : (0 : ℚ) < 2 := two_pos
  have hunit : (0 : ℚ) < 2 ^ e := zpow_pos htwo e
  have hpos : 0 < t * 2 ^ e := mul_pos ht hunit
  have hbelow : Int.log 2 (t * 2 ^ e) < 53 + e := by
    rw [← Int.lt_zpow_iff_log_lt (by decide) hpos, Nat.cast_ofNat, zpow_add₀ htwo.ne']
    exact mul_lt_mul_of_pos_right (by exact_mod_cast hlt) hunit
  rcases hge with hlarge | hsmallest
  · have habove : 52 + e ≤ Int.log 2 (t * 2 ^ e) := by
      rw [← Int.zpow_le_iff_le_log (by decide) hpos, Nat.cast_ofNat, zpow_add₀ htwo.ne']
      exact mul_le_mul_of_nonneg_right (by exact_mod_cast hlarge) hunit.le
    unfold unitOf
    omega
  · unfold unitOf
    omega

/-- Such a number is read with the significand to which it is rounded. -/
theorem nearestBits_of_scaled {num den n : Nat} {t : ℚ} {e : Int} (hd : 0 < den)
    (h : (num : ℚ) / den = t * 2 ^ e) (he : -1074 ≤ e) (ht : 0 < t) (hlt : t < 2 ^ 53)
    (hge : 2 ^ 52 ≤ t ∨ e = -1074) (hclose : |t - n| < 1 / 2) :
    nearestBits num den = min ((e + 1074).toNat * 2 ^ 52 + n) infinityBits := by
  have htwo : (0 : ℚ) < 2 := two_pos
  have hn : 0 < num := by
    refine Nat.pos_of_ne_zero fun hn => ?_
    rw [hn, Nat.cast_zero, zero_div] at h
    exact absurd h.symm (mul_pos ht (zpow_pos htwo e)).ne'
  have hround : roundHalfEven (num * twos (-e)) (den * twos e) = n := by
    apply roundHalfEven_of_abs_lt (Nat.mul_pos hd (twos_pos _))
    rwa [scaled_twos_neg, h, mul_assoc, ← zpow_add₀ htwo.ne', add_neg_cancel, zpow_zero, mul_one]
  rw [nearestBits_eq hn hd, h, unitOf_mul_zpow he ht hlt hge, hround]
  rfl

/-- Below a power of two the unit is half as large. -/
theorem nearestBits_of_binade {num den : Nat} {t : ℚ} {e : Int} (hd : 0 < den)
    (h : (num : ℚ) / den = t * 2 ^ e) (he : -1074 < e) (hlt : t < 2 ^ 52)
    (hclose : |t - (2 ^ 52 : Nat)| < 1 / 4) :
    nearestBits num den = min ((e + 1074).toNat * 2 ^ 52 + 2 ^ 52) infinityBits := by
  have hhalf : (num : ℚ) / den = 2 * t * 2 ^ (e - 1) := by
    rw [h, zpow_sub_one₀ two_ne_zero]
    ring
  have hdouble : |2 * t - (2 ^ 53 : Nat)| < 1 / 2 := by
    have hscale : 2 * t - ((2 ^ 53 : Nat) : ℚ) = 2 * (t - (2 ^ 52 : Nat)) := by
      push_cast
      ring
    rw [hscale, abs_mul, abs_two]
    linarith
  have hlo := (abs_lt.1 hclose).1
  push_cast at hlo
  have hplace : (e + 1074).toNat = (e - 1 + 1074).toNat + 1 := by omega
  rw [nearestBits_of_scaled hd hhalf (by omega) (by linarith) (by linarith) (.inl (by linarith))
    hdouble, hplace, Nat.succ_mul, add_assoc, ← two_mul, ← pow_succ']

/-- The next float, or the infinity behind the largest one. -/
theorem nearestBits_next (hv : v.isFinite = true) {num den : Nat} (hd : 0 < den)
    (h : (num : ℚ) / den = (Binary.ofFloat v).magnitude + 2 ^ (Binary.ofFloat v).exponent) :
    nearestBits num den = magnitudeBits v + 1 := by
  have hfin := (isFinite_iff v).1 hv
  have hbits := magnitudeBits_eq_fields v
  obtain ⟨hs, he, hlow⟩ := fields_ofFloat v
  rw [Binary.magnitude, ← add_one_mul, ← Nat.cast_succ] at h
  generalize (Binary.ofFloat v).significand = s at *
  generalize (Binary.ofFloat v).exponent = e at *
  rcases Nat.lt_or_ge (s + 1) (2 ^ 53) with hlt | hge
  · rw [nearestBits_of_fields (by omega) hlt hd h he fun hsmall => hlow (by omega), ← add_assoc,
      hbits]
    exact Nat.min_eq_left hfin
  · -- the significand is carried into the next binade
    have hcarry : (num : ℚ) / den = (2 ^ 52 : Nat) * 2 ^ (e + 1) := by
      rw [h, show s.succ = 2 ^ 52 * 2 by omega, zpow_add_one₀ two_ne_zero]
      push_cast
      ring
    have hplace : (e + 1 + 1074).toNat = (e + 1074).toNat + 1 := by omega
    have hsum : 2 ^ 52 + 2 ^ 52 = s + 1 := by omega
    rw [nearestBits_of_fields (by norm_num) (by norm_num) hd hcarry (by omega) fun hsmall =>
      absurd hsmall (lt_irrefl _), hplace, Nat.succ_mul, add_assoc, hsum, ← add_assoc, hbits]
    exact Nat.min_eq_left hfin

theorem Decimal.magnitude_lt_next (hv : v.isFinite = true) {d : Decimal} (h : d.toFloat = v) :
    d.magnitude < (Binary.ofFloat v).magnitude + 2 ^ (Binary.ofFloat v).exponent := by
  by_contra hge
  rw [not_lt] at hge
  have hnext : (((Binary.ofFloat v).significand + 1) * twos (Binary.ofFloat v).exponent : ℚ) /
      twos (-(Binary.ofFloat v).exponent) =
      (Binary.ofFloat v).magnitude + 2 ^ (Binary.ofFloat v).exponent := by
    rw [mul_div_assoc, twos_div_twos, add_one_mul, Binary.magnitude]
  rw [← Nat.cast_succ, ← Nat.cast_mul] at hnext
  have hbits := nearestBits_next hv (twos_pos _) hnext
  have hmono := nearestBits_mono (twos_pos _) d.denominator_pos
    (hnext.trans_le (hge.trans_eq d.fraction_eq.symm))
  have hd : magnitudeBits d.toFloat = nearestBits d.numerator d.denominator := by
    rw [toFloat_eq, floatNearest, magnitudeBits_floatOfBits (nearestBits_le _ _)]
  rw [h] at hd
  omega

/-- A fraction that differs from a float by half a unit of its seventeenth digit or less is read as
the float. -/
theorem nearestBits_of_close (hv : v.isFinite = true) (hs : 0 < (Binary.ofFloat v).significand)
    {num den : Nat} (hd : 0 < den)
    (h : |(num : ℚ) / den - (Binary.ofFloat v).magnitude| * (2 * 10 ^ 16) ≤
      (Binary.ofFloat v).magnitude) : nearestBits num den = magnitudeBits v := by
  have hfin := (isFinite_iff v).1 hv
  have hbits := magnitudeBits_eq_fields v
  obtain ⟨hs53, he, hlow⟩ := fields_ofFloat v
  rw [Binary.magnitude] at h
  generalize (Binary.ofFloat v).significand = s at *
  generalize (Binary.ofFloat v).exponent = e at *
  have hunit : (0 : ℚ) < 2 ^ e := zpow_pos two_pos e
  have hsq : (1 : ℚ) ≤ s := by exact_mod_cast hs
  have hsq53 : (s : ℚ) + 1 ≤ 2 ^ 53 := by exact_mod_cast hs53
  -- the fraction in units of the last place of the float
  obtain ⟨t, ht⟩ : ∃ t : ℚ, (num : ℚ) / den = t * 2 ^ e :=
    ⟨num / den / 2 ^ e, (div_mul_cancel₀ _ hunit.ne').symm⟩
  have hclose : |t - s| * (2 * 10 ^ 16) ≤ s := by
    rw [ht, ← sub_mul, abs_mul, abs_of_pos hunit, mul_right_comm] at h
    exact le_of_mul_le_mul_right h hunit
  have habs : |t - s| < 1 / 2 := by
    norm_num at hclose hsq53 ⊢
    linarith
  have hlo := (abs_lt.1 habs).1
  have hhi := (abs_lt.1 habs).2
  by_cases hbinade : (2 : ℚ) ^ 52 ≤ t ∨ e = -1074
  · rw [nearestBits_of_scaled hd ht he (by linarith) (by linarith) hbinade habs, hbits]
    exact Nat.min_eq_left hfin.le
  · rw [not_or, not_le] at hbinade
    obtain ⟨hsmall, hnormal⟩ := hbinade
    have hs52 : s = 2 ^ 52 := by
      have hle : 2 ^ 52 ≤ s := by
        by_contra hlt
        exact hnormal (hlow (not_le.1 hlt))
      have hlt : s < 2 ^ 52 + 1 := by
        have hq : (s : ℚ) < 2 ^ 52 + 1 := by linarith
        exact_mod_cast hq
      omega
    subst hs52
    have hquarter : |t - (2 ^ 52 : Nat)| < 1 / 4 := by
      push_cast at hclose ⊢
      norm_num at hclose ⊢
      linarith
    rw [nearestBits_of_binade hd ht (lt_of_le_of_ne he (Ne.symm hnormal)) hsmall hquarter, hbits]
    exact Nat.min_eq_left hfin.le

end

end Calculator
