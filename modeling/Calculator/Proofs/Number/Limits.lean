import Calculator.Proofs.Float.Shortest
import Calculator.Proofs.Settings.Finite

/-!
# Decimal arithmetic with limits

Decimals are rounded in an arithmetic of 28 digits, whose numbers have their first digit at a place
up to 999999 on either side of the point. Rounding has no result where a limit is passed. A float is
written with at most 17 digits, so that its decimal can be cut at every place.
-/

namespace Calculator

namespace Decimal

/-- The most digits of a result. -/
def digitLimit : Nat := 28

/-- The farthest place of a first digit from the point. -/
def placeLimit : Int := 999999

/-- The decimal rounded to a multiple of the unit of a place, if no limit is passed. -/
def quantize? (r : Rounding) (place : Int) (d : Decimal) : Option Decimal :=
  let result : Decimal :=
    { d with
      coefficient := r.quotient (d.coefficient * tens (d.exponent - place))
        (tens (place - d.exponent))
      exponent := place }
  if -placeLimit - digitLimit < place ∧ place ≤ placeLimit ∧ d.leadingPlace ≤ placeLimit ∧
      result.leadingPlace ≤ placeLimit ∧ digitCount result.coefficient ≤ digitLimit then
    some result
  else none

/-- Cutting within the limits. A decimal with no more places than are asked for is not rounded. -/
def cut? (r : Rounding) (places : Int) (d : Decimal) : Option Decimal :=
  if -places ≤ d.exponent then some d else d.quantize? r (-places)

/-- The digits and the places of a decimal under which a float can be written. -/
structure IsShort (d : Decimal) : Prop where
  coefficient_lt : d.coefficient < 10 ^ 17
  le_exponent : -340 ≤ d.exponent
  leadingPlace_le : d.leadingPlace ≤ 308

variable {d : Decimal}

theorem quotient_le (r : Rounding) (num : Nat) {den : Nat} (hd : 0 < den) :
    r.quotient num den ≤ num + 1 := by
  rw [r.quotient_eq num hd]
  have hshift := r.shift_lt_one
  have hquot : (num : ℚ) / den ≤ num :=
    div_le_self (Nat.cast_nonneg _) (by exact_mod_cast hd)
  apply Nat.floor_le_of_le
  push_cast
  linarith

/-- A short decimal is cut within the limits wherever the place is not far before its first
digit. -/
theorem IsShort.cut?_eq (h : d.IsShort) (r : Rounding) {places : Int} (hp : -308 ≤ places) :
    d.cut? r places = some (d.cut r places) := by
  obtain ⟨hcoefficient, hexponent, hleading⟩ := h
  unfold cut? cut
  split
  · rfl
  · next hplaces =>
    have hscale : tens (d.exponent - -places) = 1 := tens_of_nonpos (by omega)
    have hle := quotient_le r d.coefficient (tens_pos (-places - d.exponent))
    have hdigits : digitCount (r.quotient d.coefficient (tens (-places - d.exponent))) ≤ 18 := by
      rw [digitCount_le_iff (by decide)]
      exact hle.trans_lt (lt_of_le_of_lt hcoefficient (by decide))
    unfold quantize? leadingPlace
    rw [hscale, Nat.mul_one]
    refine if_pos ⟨?_, ?_, ?_, ?_, hdigits.trans (by decide)⟩
    · simp only [placeLimit, digitLimit]
      omega
    · simp only [placeLimit]
      omega
    · exact hleading.trans (by decide)
    · simp only [placeLimit]
      omega

theorem withoutTrailingZeros_le (d : Decimal) :
    d.withoutTrailingZeros.coefficient ≤ d.coefficient ∧
      d.exponent ≤ d.withoutTrailingZeros.exponent := by
  fun_induction withoutTrailingZeros d with
  | case1 d h => exact ⟨le_refl _, le_refl _⟩
  | case2 d h ih =>
    dsimp only at ih
    omega

theorem withoutTrailingZeros_lt {n : Nat} (h : d.coefficient ≤ 10 ^ (n + 1)) :
    d.withoutTrailingZeros.coefficient < 10 ^ (n + 1) := by
  rcases h.lt_or_eq with hlt | heq
  · exact d.withoutTrailingZeros_le.1.trans_lt hlt
  · rw [withoutTrailingZeros, if_neg (by simp [heq, pow_succ])]
    refine (withoutTrailingZeros_le _).1.trans_lt ?_
    rw [heq]
    exact Nat.div_lt_self (by positivity) (by decide)

theorem coefficient_mul_tens_lt (he : 0 ≤ d.exponent) (h : d.isPositional = true) :
    d.coefficient * tens (d.exponent + 1) < 10 ^ 17 := by
  have hplace : d.leadingPlace < 16 := of_decide_eq_true (Bool.and_eq_true_iff.1 h).2
  obtain ⟨k, hk⟩ := Int.eq_ofNat_of_zero_le he
  rw [leadingPlace, hk] at hplace
  rw [hk]
  calc d.coefficient * tens (k + 1)
      < 10 ^ digitCount d.coefficient * 10 ^ (k + 1) :=
        Nat.mul_lt_mul_of_pos_right (lt_pow_digitCount d.coefficient) (tens_pos _)
    _ = 10 ^ (digitCount d.coefficient + (k + 1)) := (Nat.pow_add ..).symm
    _ ≤ 10 ^ 17 := Nat.pow_le_pow_right (by decide) (by omega)

end Decimal

section

variable {v : Float}

theorem le_leadingPlaceOf (hs : (Binary.ofFloat v).significand ≠ 0) : -324 ≤ leadingPlaceOf v := by
  obtain ⟨hsmall, -⟩ := smallest_unit_bounds
  obtain ⟨-, hexponent, -⟩ := fields_ofFloat v
  have hunit : (2 : ℚ) ^ (-1074 : Int) ≤ (Binary.ofFloat v).magnitude :=
    calc (2 : ℚ) ^ (-1074 : Int) ≤ 2 ^ (Binary.ofFloat v).exponent :=
          zpow_le_zpow_right₀ (by norm_num) hexponent
      _ ≤ (Binary.ofFloat v).magnitude := by
          refine le_mul_of_one_le_left (zpow_pos two_pos _).le ?_
          exact_mod_cast Nat.one_le_iff_ne_zero.2 hs
  have hpower : (10 : ℚ) ^ (-324 : Int) < 10 ^ (leadingPlaceOf v + 1) := by
    refine lt_trans ?_ ((hsmall.trans_le hunit).trans (leadingPlaceOf_bracket hs).2)
    rw [show (-324 : Int) = -325 + 1 by norm_num, zpow_add_one₀ (by norm_num)]
    have hpos : (0 : ℚ) < 10 ^ (-325 : Int) := zpow_pos (by norm_num) _
    linarith
  have hlt := (zpow_lt_zpow_iff_right₀ (by norm_num : (1 : ℚ) < 10)).1 hpower
  omega

/-- A candidate has as many digits as there are places, or is the power of ten behind them. -/
theorem coefficient_le_of_mem_candidates (hs : (Binary.ofFloat v).significand ≠ 0) {k : Nat}
    {d : Decimal} (h : d ∈ candidates v (leadingPlaceOf v - k)) :
    d.coefficient ≤ 10 ^ (k + 1) ∧ d.exponent = leadingPlaceOf v - k := by
  have hten : (0 : ℚ) < 10 := by norm_num
  have hscaled : (Binary.ofFloat v).magnitude * 10 ^ (-(leadingPlaceOf v - k)) <
      (10 ^ (k + 1) : Nat) := by
    calc (Binary.ofFloat v).magnitude * 10 ^ (-(leadingPlaceOf v - k))
        < 10 ^ (leadingPlaceOf v + 1) * 10 ^ (-(leadingPlaceOf v - k)) :=
          mul_lt_mul_of_pos_right (leadingPlaceOf_bracket hs).2 (zpow_pos hten _)
      _ = 10 ^ ((k + 1 : Nat) : Int) := by
          rw [← zpow_add₀ hten.ne']
          congr 1
          push_cast
          ring
      _ = (10 ^ (k + 1) : Nat) := by
          rw [zpow_natCast]
          push_cast
          rfl
  have hfloor := (Nat.floor_lt' (by positivity)).2 hscaled
  rcases mem_candidates.1 h with rfl | rfl
  · exact ⟨hfloor.le, rfl⟩
  · exact ⟨hfloor, rfl⟩

theorem shortestDecimal_bounds (hv : v.isFinite = true) (hs : (Binary.ofFloat v).significand ≠ 0) :
    (shortestDecimal v).coefficient < 10 ^ 17 ∧ -340 ≤ (shortestDecimal v).exponent := by
  obtain ⟨k, hk, d, hfound, hshortest⟩ :=
    exists_shortestDecimal (by norm_num) (exists_mem_candidates_seventeen hv hs)
  obtain ⟨hcoefficient, hexponent⟩ :=
    coefficient_le_of_mem_candidates hs (List.mem_of_find?_eq_some hfound)
  have hleading := le_leadingPlaceOf hs
  have hstripped := d.withoutTrailingZeros_le.2
  rw [hshortest]
  refine ⟨Decimal.withoutTrailingZeros_lt (n := 16) ?_, by omega⟩
  exact hcoefficient.trans (Nat.pow_le_pow_right (by decide) (by omega))

/-- A float is written with at most 17 digits, none of them past the place -340. -/
theorem isShort_ofFloat (hv : v.isFinite = true) : (Decimal.ofFloat v).IsShort := by
  by_cases hs : (Binary.ofFloat v).significand = 0
  · have hzero : (Binary.ofFloat v).isZero = true := beq_iff_eq.2 hs
    have hdecimal : Decimal.ofFloat v = ⟨(Binary.ofFloat v).negative, 0, -1⟩ := by
      simp only [Decimal.ofFloat, hzero, if_true]
    rw [hdecimal]
    have hleading : (-1 : Int) + digitCount 0 - 1 ≤ 308 := by decide
    exact ⟨by norm_num, by norm_num, hleading⟩
  · have hzero : (Binary.ofFloat v).isZero = false := beq_false_of_ne hs
    obtain ⟨hcoefficient, hexponent⟩ := shortestDecimal_bounds hv hs
    have hleading : (Decimal.ofFloat v).leadingPlace ≤ 308 :=
      Decimal.leadingPlace_le_largest (fun h => hs (significand_of_toFloat (toFloat_ofFloat hv) h))
        (magnitude_ofFloat_le hv)
    refine ⟨?_, ?_, hleading⟩ <;>
      simp only [Decimal.ofFloat, hzero, Bool.false_eq_true, if_false]
    · split
      · next h => exact Decimal.coefficient_mul_tens_lt h.1 h.2
      · exact hcoefficient
    · split
      · norm_num
      · exact hexponent

end

end Calculator
