import Calculator.Proofs.Float.Order
import Mathlib.Algebra.Order.Floor.Semifield

/-!
# Cutting decimals

Cutting a decimal at a place rounds its magnitude down to a multiple of the unit of the place, after
half a unit has been added for rounding to the nearest. So it is monotone, keeps below every bound
that is such a multiple, and does nothing to a decimal that is one.
-/

namespace Calculator

/-- The part of a unit that is added before the digits past the last place are dropped. -/
def Rounding.shift : Rounding → ℚ
  | .towardZero => 0
  | .halfAway => 1 / 2

theorem Rounding.shift_nonneg (r : Rounding) : 0 ≤ r.shift := by
  cases r <;> norm_num [shift]

theorem Rounding.shift_lt_one (r : Rounding) : r.shift < 1 := by
  cases r <;> norm_num [shift]

theorem Rounding.quotient_eq (r : Rounding) (num : Nat) {den : Nat} (hd : 0 < den) :
    r.quotient num den = ⌊(num : ℚ) / den + r.shift⌋₊ := by
  cases r with
  | towardZero =>
    rw [shift, add_zero, Nat.floor_div_eq_div]
    rfl
  | halfAway =>
    have hdq : (den : ℚ) ≠ 0 := by exact_mod_cast hd.ne'
    have hsum : (num : ℚ) / den + 1 / 2 = ((2 * num + den : Nat) : ℚ) / (2 * den : Nat) := by
      push_cast
      field_simp
    rw [shift, hsum, Nat.floor_div_eq_div]
    rfl

theorem Rounding.floor_natCast (r : Rounding) (n : Nat) : ⌊(n : ℚ) + r.shift⌋₊ = n := by
  rw [Nat.floor_eq_iff (add_nonneg (Nat.cast_nonneg _) r.shift_nonneg)]
  have := r.shift_nonneg
  have := r.shift_lt_one
  constructor <;> linarith

namespace Decimal

/-- Cutting takes the floor in units of the last place. -/
theorem magnitude_cut (r : Rounding) (places : Int) (d : Decimal) :
    (d.cut r places).magnitude =
      (⌊d.magnitude * 10 ^ places + r.shift⌋₊ : ℕ) * (10 : ℚ) ^ (-places) := by
  have hten : (10 : ℚ) ≠ 0 := by norm_num
  unfold cut
  split
  · next h =>
    -- the decimal is a multiple of the unit already
    obtain ⟨k, hk⟩ : ∃ k : Nat, d.exponent + places = k := ⟨(d.exponent + places).toNat, by omega⟩
    have hwhole : d.magnitude * 10 ^ places = ((d.coefficient * 10 ^ k : Nat) : ℚ) := by
      rw [magnitude, mul_assoc, ← zpow_add₀ hten, hk, zpow_natCast]
      push_cast
      rfl
    rw [hwhole, r.floor_natCast, ← hwhole, mul_assoc, ← zpow_add₀ hten, add_neg_cancel, zpow_zero,
      mul_one]
  · next h =>
    have hquot : (d.coefficient : ℚ) / (tens (-places - d.exponent) : Nat) =
        d.magnitude * 10 ^ places := by
      have htens := tens_div_tens (-places - d.exponent)
      rw [tens_of_nonpos (e := -(-places - d.exponent)) (by omega), Nat.cast_one, div_one] at htens
      rw [htens, magnitude, div_eq_mul_inv, ← zpow_neg, mul_assoc, ← zpow_add₀ hten]
      congr 2
      ring
    simp only [magnitude]
    rw [r.quotient_eq _ (tens_pos _), hquot]
    rfl

theorem truncateAt_natCast (places : Nat) :
    truncateAt places = cut .towardZero places := by
  funext d
  rw [truncateAt, max_eq_left (Int.natCast_nonneg places)]

theorem roundAt_natCast (places : Nat) : roundAt places = cut .halfAway places := by
  funext d
  rw [roundAt, max_eq_left (Int.natCast_nonneg places)]

theorem magnitude_cut_mono (r : Rounding) (places : Int) {d d' : Decimal}
    (h : d.magnitude ≤ d'.magnitude) :
    (d.cut r places).magnitude ≤ (d'.cut r places).magnitude := by
  have hten : (0 : ℚ) < 10 := by norm_num
  rw [magnitude_cut, magnitude_cut]
  refine mul_le_mul_of_nonneg_right ?_ (zpow_pos hten _).le
  have hscaled := mul_le_mul_of_nonneg_right h (zpow_pos hten places).le
  have hfloor := Nat.floor_mono (add_le_add_left hscaled r.shift)
  exact_mod_cast hfloor

theorem magnitude_cut_le (r : Rounding) {places : Int} {d : Decimal} {n : Nat}
    (h : d.magnitude ≤ n * 10 ^ (-places)) : (d.cut r places).magnitude ≤ n * 10 ^ (-places) := by
  have hcut : (Decimal.cut r places ⟨false, n, -places⟩) = ⟨false, n, -places⟩ :=
    cut_of_le (le_refl _)
  have hmono : _ ≤ (Decimal.cut r places ⟨false, n, -places⟩).magnitude :=
    magnitude_cut_mono r places h
  rwa [hcut] at hmono

/-- The magnitude is a multiple of the unit of the place. -/
def OnGrid (place : Int) (d : Decimal) : Prop := ∃ n : Nat, d.magnitude = n * 10 ^ place

theorem OnGrid.mono {place place' : Int} {d : Decimal} (h : d.OnGrid place) (hp : place' ≤ place) :
    d.OnGrid place' := by
  obtain ⟨n, hn⟩ := h
  obtain ⟨k, hk⟩ : ∃ k : Nat, place = k + place' := ⟨(place - place').toNat, by omega⟩
  refine ⟨n * 10 ^ k, ?_⟩
  rw [hn, hk, zpow_add₀ (by norm_num), zpow_natCast, ← mul_assoc]
  push_cast
  rfl

theorem onGrid_of_le_exponent {place : Int} {d : Decimal} (h : place ≤ d.exponent) :
    d.OnGrid place := OnGrid.mono ⟨d.coefficient, rfl⟩ h

theorem onGrid_cut (r : Rounding) (places : Int) (d : Decimal) :
    (d.cut r places).OnGrid (-places) := ⟨_, magnitude_cut r places d⟩

theorem magnitude_cut_of_onGrid (r : Rounding) {places : Int} {d : Decimal}
    (h : d.OnGrid (-places)) : (d.cut r places).magnitude = d.magnitude := by
  obtain ⟨n, hn⟩ := h
  have hunits : d.magnitude * 10 ^ places = n := by
    rw [hn, mul_assoc, ← zpow_add₀ (by norm_num), neg_add_cancel, zpow_zero, mul_one]
  rw [magnitude_cut, hunits, r.floor_natCast, ← hn]

end Decimal

end Calculator
