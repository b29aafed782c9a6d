import Calculator.Proofs.Float.Compare
import Calculator.Proofs.Float.Shortest

/-!
# Decimals with their signs

A decimal is written with a sign and a magnitude. The decimal under which a float is written turns
its sign with the float, and is larger for a larger float; cutting does not disturb either.
-/

namespace Calculator

def signedValue (negative : Bool) (x : ℚ) : ℚ := if negative then -x else x

theorem abs_signedValue_sub (negative : Bool) (x y : ℚ) :
    |signedValue negative x - signedValue negative y| = |x - y| := by
  cases negative
  · rfl
  · change |-x - -y| = |x - y|
    rw [neg_sub_neg, abs_sub_comm]

theorem abs_signedValue {negative : Bool} {x : ℚ} (hx : 0 ≤ x) : |signedValue negative x| = x := by
  cases negative
  · exact abs_of_nonneg hx
  · exact (abs_neg x).trans (abs_of_nonneg hx)

def Binary.value (b : Binary) : ℚ := signedValue b.negative b.magnitude

namespace Decimal

variable {d d' : Decimal}

def value (d : Decimal) : ℚ := signedValue d.negative d.magnitude

def negated (d : Decimal) : Decimal := { d with negative := !d.negative }

theorem magnitude_nonneg (d : Decimal) : 0 ≤ d.magnitude :=
  mul_nonneg (Nat.cast_nonneg _) (zpow_pos (by norm_num) _).le

theorem magnitude_eq_zero_iff : d.magnitude = 0 ↔ d.coefficient = 0 := by
  have hten : (10 : ℚ) ^ d.exponent ≠ 0 := (zpow_pos (by norm_num) _).ne'
  rw [magnitude, mul_eq_zero, or_iff_left hten]
  exact Nat.cast_eq_zero

theorem OnGrid.unit_le {place : Int} (h : d.OnGrid place) (hd : d.coefficient ≠ 0) :
    10 ^ place ≤ d.magnitude := by
  obtain ⟨n, hn⟩ := h
  rw [Ne, ← magnitude_eq_zero_iff, hn, mul_eq_zero, not_or] at hd
  rw [hn]
  refine le_mul_of_one_le_left (zpow_pos (by norm_num) _).le ?_
  exact_mod_cast Nat.one_le_iff_ne_zero.2 (by exact_mod_cast hd.1)

theorem abs_value (d : Decimal) : |d.value| = d.magnitude := abs_signedValue d.magnitude_nonneg

theorem value_of_not_negative (h : d.negative = false) : d.value = d.magnitude := by
  rw [value, h]
  rfl

theorem value_of_negative (h : d.negative = true) : d.value = -d.magnitude := by
  rw [value, h]
  rfl

theorem value_congr (hn : d.negative = d'.negative) (h : d.magnitude = d'.magnitude) :
    d.value = d'.value := by
  rw [value, value, hn, h]

theorem magnitude_congr (h : d.value = d'.value) : d.magnitude = d'.magnitude := by
  rw [← abs_value, h, abs_value]

theorem abs_value_sub (hn : d.negative = d'.negative) :
    |d.value - d'.value| = |d.magnitude - d'.magnitude| := by
  rw [value, value, hn, abs_signedValue_sub]

theorem abs_magnitude_sub_le (d d' : Decimal) :
    |d.magnitude - d'.magnitude| ≤ |d.value - d'.value| := by
  rw [← d.abs_value, ← d'.abs_value]
  exact abs_abs_sub_abs_le _ _

theorem cut_negated (r : Rounding) (places : Int) (d : Decimal) :
    d.negated.cut r places = (d.cut r places).negated := by
  unfold cut negated
  split <;> rfl

/-- Cutting is monotone on both sides of zero. -/
theorem value_cut_mono (r : Rounding) (places : Int) (h : d.value ≤ d'.value) :
    (d.cut r places).value ≤ (d'.cut r places).value := by
  have hn := cut_negative r places d
  have hn' := cut_negative r places d'
  cases hd : d.negative <;> cases hd' : d'.negative
  · rw [value_of_not_negative hd, value_of_not_negative hd'] at h
    rw [value_of_not_negative (hn.trans hd), value_of_not_negative (hn'.trans hd')]
    exact magnitude_cut_mono r places h
  · -- only zero is not above a negative decimal
    rw [value_of_not_negative hd, value_of_negative hd'] at h
    have hzero : d.magnitude ≤ (0 : Nat) * 10 ^ (-places) := by
      have := d'.magnitude_nonneg
      rw [Nat.cast_zero, zero_mul]
      linarith
    have hzero' : d'.magnitude ≤ (0 : Nat) * 10 ^ (-places) := by
      have := d.magnitude_nonneg
      rw [Nat.cast_zero, zero_mul]
      linarith
    have hcut := magnitude_cut_le r hzero
    have hcut' := magnitude_cut_le r hzero'
    rw [Nat.cast_zero, zero_mul] at hcut hcut'
    rw [value_of_not_negative (hn.trans hd), value_of_negative (hn'.trans hd')]
    linarith
  · rw [value_of_negative (hn.trans hd), value_of_not_negative (hn'.trans hd')]
    have := (d.cut r places).magnitude_nonneg
    have := (d'.cut r places).magnitude_nonneg
    linarith
  · rw [value_of_negative hd, value_of_negative hd', neg_le_neg_iff] at h
    rw [value_of_negative (hn.trans hd), value_of_negative (hn'.trans hd'), neg_le_neg_iff]
    exact magnitude_cut_mono r places h

theorem toFloat_negated (d : Decimal) : d.negated.toFloat = -d.toFloat := by
  have hle := d.toFloat_le_infinity
  apply eq_of_bits
  · rw [signBit_neg hle, signBit_toFloat, signBit_toFloat]
    rfl
  · rw [magnitudeBits_neg hle, toFloat_eq, toFloat_eq, floatNearest, floatNearest,
      magnitudeBits_floatOfBits (nearestBits_le _ _),
      magnitudeBits_floatOfBits (nearestBits_le _ _)]
    rfl

theorem withoutTrailingZeros_negated (d : Decimal) :
    d.negated.withoutTrailingZeros = d.withoutTrailingZeros.negated := by
  fun_induction withoutTrailingZeros d with
  | case1 d h =>
    rw [withoutTrailingZeros]
    exact if_pos h
  | case2 d h ih =>
    rw [withoutTrailingZeros, if_neg (by exact h)]
    exact ih

end Decimal

section

variable {v w : Float}

theorem Binary.ofFloat_neg (h : magnitudeBits v ≤ infinityBits) :
    ofFloat (-v) = { ofFloat v with negative := !(ofFloat v).negative } := by
  simp only [ofFloat_eq, magnitudeBits_neg h, signBit_neg h]

theorem candidates_neg (h : magnitudeBits v ≤ infinityBits) (place : Int) :
    candidates (-v) place = (candidates v place).map Decimal.negated := by
  rw [candidates, Binary.ofFloat_neg h]
  rfl

theorem denotes_neg (h : magnitudeBits v ≤ infinityBits) (d : Decimal) :
    d.negated.denotes (-v) = d.denotes v := by
  rw [Bool.eq_iff_iff, Decimal.denotes_iff, Decimal.denotes_iff, Decimal.toFloat_negated]
  constructor
  · intro heq
    rw [← neg_neg_of_le h, ← heq, neg_neg_of_le d.toFloat_le_infinity]
  · exact congrArg _

theorem shortestDecimal_neg (h : magnitudeBits v ≤ infinityBits) :
    shortestDecimal (-v) = (shortestDecimal v).negated := by
  have hsearch (u : Float) : shortestDecimal u = ((((List.range 17).flatMap fun n : Nat =>
      candidates u (leadingPlaceOf u - n)).find? (·.denotes u)).getD
        (Binary.ofFloat u).toDecimal).withoutTrailingZeros := rfl
  have hleading : leadingPlaceOf (-v) = leadingPlaceOf v := by
    rw [leadingPlaceOf, Binary.ofFloat_neg h]
    rfl
  have hexact : (Binary.ofFloat (-v)).toDecimal = (Binary.ofFloat v).toDecimal.negated := by
    rw [Binary.ofFloat_neg h]
    unfold Binary.toDecimal
    split <;> rfl
  have hdenotes : (Decimal.denotes · (-v)) ∘ Decimal.negated = (Decimal.denotes · v) :=
    funext (denotes_neg h)
  rw [hsearch, hsearch, hleading, hexact]
  simp only [candidates_neg h]
  rw [← List.map_flatMap, List.find?_map, hdenotes, Option.getD_map,
    Decimal.withoutTrailingZeros_negated]

/-- A negated float is written with the other sign. -/
theorem Decimal.ofFloat_neg (h : magnitudeBits v ≤ infinityBits) :
    ofFloat (-v) = (ofFloat v).negated := by
  simp only [ofFloat, shortestDecimal_neg h, Binary.ofFloat_neg h]
  rw [apply_ite negated, apply_ite negated]
  rfl

theorem Decimal.magnitude_ofFloat_mono (hv : v.isFinite = true) (hw : w.isFinite = true)
    (h : magnitudeBits v ≤ magnitudeBits w) : (ofFloat v).magnitude ≤ (ofFloat w).magnitude := by
  by_contra hgt
  rw [not_le] at hgt
  have hle := magnitudeBits_mono hgt.le
  rw [toFloat_ofFloat hv, toFloat_ofFloat hw] at hle
  have hbits : magnitudeBits v = magnitudeBits w := by omega
  rcases eq_or_ne (signBit v) (signBit w) with hs | hs
  · rw [eq_of_bits hs hbits] at hgt
    exact lt_irrefl _ hgt
  · have hneg : v = -w := by
      have hinf := magnitudeBits_le_of_isFinite hw
      apply eq_of_bits
      · rw [signBit_neg hinf]
        exact Bool.eq_not_of_ne hs
      · rw [magnitudeBits_neg hinf, hbits]
    rw [hneg, ofFloat_neg (magnitudeBits_le_of_isFinite hw)] at hgt
    exact lt_irrefl _ hgt

/-- A larger float is written as a larger decimal. -/
theorem Decimal.value_ofFloat_mono (hv : v.isFinite = true) (hw : w.isFinite = true) (h : v ≤ w) :
    (ofFloat v).value ≤ (ofFloat w).value := by
  rw [le_iff_ordinal hv hw] at h
  have hn := negative_ofFloat hv
  have hn' := negative_ofFloat hw
  cases hs : signBit v <;> cases hs' : signBit w
  · rw [ordinal_of_not_signBit hs, ordinal_of_not_signBit hs', Int.ofNat_le] at h
    rw [value_of_not_negative (hn.trans hs), value_of_not_negative (hn'.trans hs')]
    exact magnitude_ofFloat_mono hv hw h
  · -- both are zero
    rw [ordinal_of_not_signBit hs, ordinal_of_signBit hs'] at h
    have hzero := magnitude_ofFloat_of_zero ((magnitudeBits_eq_zero_iff v).1 (by omega))
    have hzero' := magnitude_ofFloat_of_zero ((magnitudeBits_eq_zero_iff w).1 (by omega))
    rw [value_of_not_negative (hn.trans hs), value_of_negative (hn'.trans hs'), hzero, hzero',
      neg_zero]
  · rw [value_of_negative (hn.trans hs), value_of_not_negative (hn'.trans hs')]
    exact (neg_nonpos.2 (magnitude_nonneg _)).trans (magnitude_nonneg _)
  · rw [ordinal_of_signBit hs, ordinal_of_signBit hs', neg_le_neg_iff, Int.ofNat_le] at h
    rw [value_of_negative (hn.trans hs), value_of_negative (hn'.trans hs'), neg_le_neg_iff]
    exact magnitude_ofFloat_mono hw hv h

end

end Calculator
