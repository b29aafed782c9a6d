import Calculator.Proofs.Float.Decimals

/-!
# Rounding and order

The nearest float grows with the fraction, so a decimal that is at most as large as one with a
finite float has a finite float itself.
-/

namespace Calculator

theorem roundHalfEven_mono {a b c d : Nat} (hb : 0 < b) (hd : 0 < d)
    (hle : (a : ℚ) / b ≤ (c : ℚ) / d) : roundHalfEven a b ≤ roundHalfEven c d := by
  have h : a * d ≤ c * b := by
    rw [div_le_div_iff₀ (by exact_mod_cast hb) (by exact_mod_cast hd)] at hle
    exact_mod_cast hle
  have hquot : a / b ≤ c / d := by
    rw [Nat.le_div_iff_mul_le hd]
    refine Nat.le_of_mul_le_mul_right ?_ hb
    calc a / b * d * b = a / b * b * d := Nat.mul_right_comm _ _ _
      _ ≤ a * d := Nat.mul_le_mul_right d (Nat.div_mul_le_self a b)
      _ ≤ c * b := h
  rcases Nat.lt_or_eq_of_le hquot with hlt | heq
  · calc roundHalfEven a b ≤ a / b + 1 := by
          unfold roundHalfEven
          dsimp only
          split <;> omega
      _ ≤ c / d := hlt
      _ ≤ roundHalfEven c d := le_roundHalfEven c d
  · -- with the same whole part, the remainders decide
    have hrem : a % b * d ≤ c % d * b := by
      have ha : a * d = a / b * (b * d) + a % b * d := by
        conv_lhs => rw [← Nat.div_add_mod a b]
        ring
      have hc : c * b = a / b * (b * d) + c % d * b := by
        conv_lhs => rw [← Nat.div_add_mod c d]
        rw [heq]
        ring
      omega
    have hgt : b < 2 * (a % b) → d < 2 * (c % d) := by
      intro hlt
      refine Nat.lt_of_mul_lt_mul_left (a := b) ?_
      nlinarith
    have hge : 2 * (a % b) = b → d ≤ 2 * (c % d) := by
      intro he
      refine Nat.le_of_mul_le_mul_left ?_ hb
      nlinarith
    simp only [roundHalfEven, heq]
    split
    · next hup =>
      rcases hup with hup | ⟨hup, hodd⟩
      · rw [if_pos (.inl (hgt hup))]
      · rcases Nat.lt_or_eq_of_le (hge hup) with hlt | heq'
        · rw [if_pos (.inl hlt)]
        · rw [if_pos (.inr ⟨heq'.symm, heq ▸ hodd⟩)]
    · split <;> omega

theorem roundHalfEven_le {num den n : Nat} (hd : 0 < den) (h : (num : ℚ) / den ≤ n) :
    roundHalfEven num den ≤ n := by
  have hmono := roundHalfEven_mono (c := n) hd Nat.one_pos (by simpa using h)
  have hself := roundHalfEven_mul_right n Nat.one_pos
  rw [Nat.mul_one] at hself
  rwa [hself] at hmono

theorem le_roundHalfEven_of_le {num den n : Nat} (hd : 0 < den) (h : (n : ℚ) ≤ (num : ℚ) / den) :
    n ≤ roundHalfEven num den := by
  have hmono := roundHalfEven_mono (a := n) Nat.one_pos hd (by simpa using h)
  have hself := roundHalfEven_mul_right n Nat.one_pos
  rw [Nat.mul_one] at hself
  rwa [hself] at hmono

theorem unitOf_mono {x y : ℚ} (hx : 0 < x) (h : x ≤ y) : unitOf x ≤ unitOf y := by
  have hlog : Int.log 2 x ≤ Int.log 2 y := Int.log_mono_right hx h
  unfold unitOf
  omega

def significandOf (num den : Nat) : Nat :=
  roundHalfEven (num * twos (-unitOf ((num : ℚ) / den))) (den * twos (unitOf ((num : ℚ) / den)))

theorem significandOf_le {num den : Nat} (hn : 0 < num) (hd : 0 < den) :
    significandOf num den ≤ 2 ^ 53 := by
  have htwo : (0 : ℚ) < 2 := by norm_num
  apply roundHalfEven_le (Nat.mul_pos hd (twos_pos _))
  rw [scaled_twos_neg]
  have hpos : 0 < (num : ℚ) / den := div_pos (by exact_mod_cast hn) (by exact_mod_cast hd)
  have hlt := Int.lt_zpow_succ_log_self (b := 2) (by decide) ((num : ℚ) / den)
  have hexp : Int.log 2 ((num : ℚ) / den) + 1 ≤ unitOf ((num : ℚ) / den) + 53 := by
    unfold unitOf
    omega
  calc (num : ℚ) / den * 2 ^ (-unitOf ((num : ℚ) / den))
      ≤ 2 ^ (unitOf ((num : ℚ) / den) + 53) * 2 ^ (-unitOf ((num : ℚ) / den)) := by
        refine mul_le_mul_of_nonneg_right ?_ (zpow_pos htwo _).le
        exact hlt.le.trans (zpow_le_zpow_right₀ (by norm_num) hexp)
    _ = ((2 ^ 53 : Nat) : ℚ) := by
      rw [← zpow_add₀ htwo.ne', add_neg_cancel_comm]
      norm_num

/-- Above the smallest unit the significand has 53 digits. -/
theorem le_significandOf {num den : Nat} (hn : 0 < num) (hd : 0 < den)
    (hu : -1074 < unitOf ((num : ℚ) / den)) : 2 ^ 52 ≤ significandOf num den := by
  have htwo : (0 : ℚ) < 2 := by norm_num
  apply le_roundHalfEven_of_le (Nat.mul_pos hd (twos_pos _))
  rw [scaled_twos_neg]
  have hpos : 0 < (num : ℚ) / den := div_pos (by exact_mod_cast hn) (by exact_mod_cast hd)
  have hle := Int.zpow_log_le_self (b := 2) (by decide) hpos
  have hexp : Int.log 2 ((num : ℚ) / den) = unitOf ((num : ℚ) / den) + 52 := by
    unfold unitOf at hu ⊢
    omega
  calc ((2 ^ 52 : Nat) : ℚ)
      = 2 ^ (unitOf ((num : ℚ) / den) + 52) * 2 ^ (-unitOf ((num : ℚ) / den)) := by
        rw [← zpow_add₀ htwo.ne', add_neg_cancel_comm]
        norm_num
    _ ≤ (num : ℚ) / den * 2 ^ (-unitOf ((num : ℚ) / den)) := by
      refine mul_le_mul_of_nonneg_right ?_ (zpow_pos htwo _).le
      rw [← hexp]
      exact_mod_cast hle

/-- The nearest float is monotone in the fraction. -/
theorem nearestBits_mono {a b c d : Nat} (hb : 0 < b) (hd : 0 < d)
    (h : (a : ℚ) / b ≤ (c : ℚ) / d) : nearestBits a b ≤ nearestBits c d := by
  rcases Nat.eq_zero_or_pos a with rfl | ha
  · simp [nearestBits]
  · have hapos : 0 < (a : ℚ) / b := div_pos (by exact_mod_cast ha) (by exact_mod_cast hb)
    have hc : 0 < c := by
      refine Nat.pos_of_ne_zero fun hc => ?_
      rw [hc, Nat.cast_zero, zero_div] at h
      exact absurd hapos (not_lt.2 h)
    rw [nearestBits_eq ha hb, nearestBits_eq hc hd]
    refine min_le_min_right _ ?_
    change _ + significandOf a b ≤ _ + significandOf c d
    have hunit := unitOf_mono hapos h
    rcases hunit.eq_or_lt with heq | hlt
    · -- the same unit: the significands are rounded quotients
      have hsig : significandOf a b ≤ significandOf c d := by
        unfold significandOf
        rw [heq]
        apply roundHalfEven_mono (Nat.mul_pos hb (twos_pos _)) (Nat.mul_pos hd (twos_pos _))
        rw [scaled_twos_neg, scaled_twos_neg]
        exact mul_le_mul_of_nonneg_right h (zpow_pos (by norm_num) _).le
      rw [heq]
      omega
    · -- a larger unit makes up for any smaller significand
      have hmin : -1074 ≤ unitOf ((a : ℚ) / b) := le_max_right _ _
      have hle := significandOf_le ha hb
      have hge := le_significandOf hc hd (by omega)
      have h52 : twos 52 = 2 ^ 52 := rfl
      have hstep : ((unitOf ((a : ℚ) / b) + 1074).toNat + 1) * 2 ^ 52 ≤
          (unitOf ((c : ℚ) / d) + 1074).toNat * 2 ^ 52 := Nat.mul_le_mul_right _ (by omega)
      rw [h52]
      omega

/-- A larger decimal reads as a larger float. -/
theorem Decimal.magnitudeBits_mono {d d' : Decimal} (h : d.magnitude ≤ d'.magnitude) :
    magnitudeBits d.toFloat ≤ magnitudeBits d'.toFloat := by
  rw [toFloat_eq, toFloat_eq, floatNearest, floatNearest,
    magnitudeBits_floatOfBits (nearestBits_le _ _), magnitudeBits_floatOfBits (nearestBits_le _ _)]
  apply nearestBits_mono d.denominator_pos d'.denominator_pos
  rwa [fraction_eq, fraction_eq]

theorem Decimal.isFinite_of_le {d d' : Decimal} (h : d.magnitude ≤ d'.magnitude)
    (hf : d'.toFloat.isFinite = true) : d.toFloat.isFinite = true := by
  rw [isFinite_iff] at hf ⊢
  exact Nat.lt_of_le_of_lt (magnitudeBits_mono h) hf

def extremeFloat (negative : Bool) : Float := floatOfBits negative (infinityBits - 1)

def largestDecimal : Decimal := ⟨false, 17976931348623157, 292⟩

theorem digitCount_eq_of_bounds {n k : Nat} (hlo : tens k ≤ n) (hhi : n < tens (k + 1 : Nat)) :
    digitCount n = k + 1 := by
  have hle := (digitCount_le_iff (n := n) (k := k + 1) (by omega)).2 hhi
  rcases Nat.eq_zero_or_pos k with rfl | hk
  · have := digitCount_pos n
    omega
  · have hgt : ¬digitCount n ≤ k := fun h => absurd ((digitCount_le_iff hk).1 h) (Nat.not_lt.2 hlo)
    omega

theorem leadingDecimalPlace_extremeFloat (negative : Bool) :
    leadingDecimalPlace (Binary.ofFloat (extremeFloat negative)).numerator
      (Binary.ofFloat (extremeFloat negative)).denominator = 308 := by
  have hvalue : (Binary.ofFloat (extremeFloat negative)).numerator = (twos 53 - 1) * twos 971 ∧
      (Binary.ofFloat (extremeFloat negative)).denominator = 1 := by
    cases negative <;> decide +kernel
  rw [hvalue.1, hvalue.2, leadingDecimalPlace, if_pos (by decide +kernel), Nat.div_one,
    digitCount_eq_of_bounds (k := 308) (by decide +kernel) (by decide +kernel)]
  rfl

theorem ofFloat_extremeFloat (negative : Bool) :
    Decimal.ofFloat (extremeFloat negative) = { largestDecimal with negative := negative } := by
  have hplace := leadingDecimalPlace_extremeFloat negative
  unfold Decimal.ofFloat shortestDecimal
  simp only [hplace]
  cases negative <;> decide +kernel

/-- The least whole number that is rounded to an infinity: the largest float and half a unit. -/
def overflowLimit : Nat := 2 ^ 1024 - 2 ^ 970

/-- Whole numbers are rounded to finite floats up to half a unit past the largest one. -/
theorem isFinite_floatOfInt_iff (i : Int) :
    (floatOfInt i).isFinite = true ↔ i.natAbs < overflowLimit := by
  have hat : nearestBits overflowLimit 1 = infinityBits := by decide +kernel
  have hbelow : nearestBits (overflowLimit - 1) 1 < infinityBits := by decide +kernel
  rw [floatOfInt, floatNearest, isFinite_floatOfBits (nearestBits_le _ _)]
  constructor
  · intro hfinite
    by_contra hge
    have hle := nearestBits_mono (a := overflowLimit) (c := i.natAbs) one_pos one_pos
      (div_le_div_of_nonneg_right (by exact_mod_cast Nat.not_lt.1 hge) (by norm_num))
    rw [hat] at hle
    omega
  · intro hlt
    have hle := nearestBits_mono (a := i.natAbs) (c := overflowLimit - 1) one_pos one_pos
      (div_le_div_of_nonneg_right (by exact_mod_cast Nat.le_sub_one_of_lt hlt) (by norm_num))
    exact lt_of_le_of_lt hle hbelow

theorem magnitude_ofFloat_le {v : Float} (hv : v.isFinite = true) :
    (Decimal.ofFloat v).magnitude ≤ largestDecimal.magnitude := by
  by_contra hgt
  rw [not_le] at hgt
  have hbits : infinityBits - 1 ≤ magnitudeBits v := by
    have hmono := Decimal.magnitudeBits_mono hgt.le
    rw [toFloat_ofFloat hv] at hmono
    exact Nat.le_trans (by decide +kernel) hmono
  have hlt := (isFinite_iff v).1 hv
  have hvalue : v = extremeFloat (signBit v) := by
    rw [extremeFloat, ← show magnitudeBits v = infinityBits - 1 by omega,
      floatOfBits_bits (Nat.le_of_lt hlt)]
  rw [hvalue, ofFloat_extremeFloat] at hgt
  exact absurd hgt (lt_irrefl _)

end Calculator
