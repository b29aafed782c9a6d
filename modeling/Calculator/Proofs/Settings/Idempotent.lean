import Calculator.Proofs.Float.Shortest
import Calculator.Proofs.Settings.Finite

/-!
# Rounding once is rounding for good

A rounded number is a multiple of the unit at which it was rounded. The float nearest to it is
written as such a multiple too, so it is kept when it is rounded again. With significant digits the
unit depends on the leading place, which a carry moves; then the number is a power of ten.
-/

namespace Calculator

namespace Decimal

variable {d : Decimal}

theorem cut_cut (r : Rounding) (places : Int) (d : Decimal) :
    (d.cut r places).cut r places = d.cut r places :=
  cut_of_le (le_exponent_cut r places d)

theorem coefficient_ne_zero_of_pos (h : 0 < d.magnitude) : d.coefficient ≠ 0 := by
  intro hzero
  rw [magnitude, hzero, Nat.cast_zero, zero_mul] at h
  exact lt_irrefl _ h

theorem not_isNegligible_iff : d.isNegligible = false ↔ 10 ^ (-10 : Int) ≤ d.magnitude := by
  rw [← Bool.not_eq_true, isNegligible_iff, not_lt]

theorem coefficient_ne_zero_of_not_isNegligible (h : d.isNegligible = false) :
    d.coefficient ≠ 0 :=
  coefficient_ne_zero_of_pos ((zpow_pos (by norm_num) _).trans_le (not_isNegligible_iff.1 h))

theorem roundSignificant_of_not_isNegligible (digits : Int) (h : d.isNegligible = false) :
    d.roundSignificant digits = d.cut .halfAway (d.significantPlaces digits) := by
  rw [roundSignificant, h, if_neg Bool.false_ne_true]

theorem roundSignificant_zero (digits : Int) : zero.roundSignificant digits = zero := by
  rw [roundSignificant, if_pos (by decide)]

theorem leading_le_magnitude_cut (digits : Int) (h : d.coefficient ≠ 0) :
    10 ^ d.leadingPlace ≤ (d.cut .halfAway (d.significantPlaces digits)).magnitude := by
  have hunit : Decimal.magnitude ⟨false, 1, d.leadingPlace⟩ = 10 ^ d.leadingPlace := by
    rw [magnitude, Nat.cast_one, one_mul]
  have hkept : Decimal.cut .halfAway (d.significantPlaces digits) ⟨false, 1, d.leadingPlace⟩ =
      ⟨false, 1, d.leadingPlace⟩ := by
    apply cut_of_le
    rw [significantPlaces]
    dsimp only
    omega
  have hmono := magnitude_cut_mono .halfAway (d.significantPlaces digits)
    (hunit.trans_le (leading_le_magnitude h))
  rwa [hkept, hunit] at hmono

theorem not_isNegligible_cut (digits : Int) (h : d.isNegligible = false) :
    (d.cut .halfAway (d.significantPlaces digits)).isNegligible = false := by
  rw [not_isNegligible_iff]
  calc (10 : ℚ) ^ (-10 : Int) ≤ 10 ^ d.leadingPlace :=
        zpow_le_zpow_right₀ (by norm_num) (le_leadingPlace h)
    _ ≤ _ := leading_le_magnitude_cut digits (coefficient_ne_zero_of_not_isNegligible h)

/-- A multiple of the last significant unit of a number is one of its own last significant unit,
unless it has a later leading place without being a multiple of that. -/
theorem onGrid_significant {digits : Nat} {e : Decimal}
    (hgrid : e.OnGrid (-d.significantPlaces digits))
    (hcarry : d.leadingPlace < e.leadingPlace → e.OnGrid e.leadingPlace) :
    e.OnGrid (-e.significantPlaces digits) := by
  rcases Int.lt_or_le d.leadingPlace e.leadingPlace with hlt | hle
  · refine (hcarry hlt).mono ?_
    rw [significantPlaces]
    omega
  · refine hgrid.mono ?_
    rw [significantPlaces, significantPlaces]
    omega

/-- A carry into the next place gives a power of ten. -/
theorem onGrid_leadingPlace_cut {digits : Nat} (h : d.isNegligible = false)
    (hcarry : d.leadingPlace < (d.cut .halfAway (d.significantPlaces digits)).leadingPlace) :
    (d.cut .halfAway (d.significantPlaces digits)).OnGrid
      (d.cut .halfAway (d.significantPlaces digits)).leadingPlace := by
  have hle := magnitude_cut_significant_le d digits
  have hge := leading_le_magnitude
    (coefficient_ne_zero_of_not_isNegligible (not_isNegligible_cut digits h))
  have hpowers : (10 : ℚ) ^ (d.leadingPlace + 1) ≤ 10 ^
      (d.cut .halfAway (d.significantPlaces digits)).leadingPlace :=
    zpow_le_zpow_right₀ (by norm_num) hcarry
  refine ⟨1, ?_⟩
  rw [Nat.cast_one, one_mul]
  exact le_antisymm (hle.trans hpowers) hge

/-- Rounding to significant digits again changes how a number is written at most. -/
theorem roundSignificant_roundSignificant (digits : Nat) (d : Decimal) :
    ((d.roundSignificant digits).roundSignificant digits).negative =
        (d.roundSignificant digits).negative ∧
      ((d.roundSignificant digits).roundSignificant digits).magnitude =
        (d.roundSignificant digits).magnitude := by
  cases h : d.isNegligible with
  | true =>
    rw [show d.roundSignificant digits = zero by rw [roundSignificant, if_pos h],
      roundSignificant_zero]
    exact ⟨rfl, rfl⟩
  | false =>
    rw [roundSignificant_of_not_isNegligible digits h,
      roundSignificant_of_not_isNegligible digits (not_isNegligible_cut digits h)]
    exact ⟨cut_negative _ _ _, magnitude_cut_of_onGrid _
      (onGrid_significant (onGrid_cut _ _ d) (onGrid_leadingPlace_cut h))⟩

end Decimal

namespace ArithmeticSettings

/-- A decimal that is rounded again is the same number, at most written with other digits. -/
theorem policy_policy (s : ArithmeticSettings) (d : Decimal) :
    (s.policy (s.policy d)).negative = (s.policy d).negative ∧
      (s.policy (s.policy d)).magnitude = (s.policy d).magnitude := by
  obtain ⟨mode, precision, significant⟩ := s
  cases mode with
  | normal => exact ⟨rfl, rfl⟩
  | truncate | round =>
    cases significant with
    | true => exact Decimal.roundSignificant_roundSignificant precision d
    | false =>
      constructor <;> exact congrArg _ (Decimal.cut_cut _ _ d)

end ArithmeticSettings

section

variable {v : Float} {d : Decimal}

/-- The float of a power of ten between two decimals that read as the same is written as the
power. -/
theorem onGrid_ofFloat_of_between (hv : v.isFinite = true) {lower upper : Decimal} {place : Int}
    (hl : lower.toFloat = v) (hu : upper.toFloat = v) (hlo : lower.magnitude ≤ 10 ^ place)
    (hhi : 10 ^ place ≤ upper.magnitude) :
    Decimal.toFloat ⟨signBit v, 1, place⟩ = v ∧ (Decimal.ofFloat v).OnGrid place := by
  have hpower : Decimal.magnitude ⟨signBit v, 1, place⟩ = 10 ^ place := by
    rw [Decimal.magnitude, Nat.cast_one, one_mul]
  have hread : Decimal.toFloat ⟨signBit v, 1, place⟩ = v :=
    Decimal.toFloat_of_between hl hu rfl (hlo.trans_eq hpower.symm) (hpower.trans_le hhi)
  exact ⟨hread, onGrid_ofFloat_exponent hv hread⟩

theorem toFloat_cut_ofFloat (hv : v.isFinite = true) (r : Rounding) {places : Int}
    (h : (Decimal.ofFloat v).OnGrid (-places)) :
    ((Decimal.ofFloat v).cut r places).toFloat = v := by
  have hcut := Decimal.toFloat_congr (Decimal.cut_negative r places _)
    (Decimal.magnitude_cut_of_onGrid r h)
  rw [hcut, toFloat_ofFloat hv]

theorem not_isNegligible_ofFloat (hv : v.isFinite = true) (hd : d.toFloat = v)
    (h : d.isNegligible = false) : (Decimal.ofFloat v).isNegligible = false := by
  rw [Decimal.not_isNegligible_iff] at h ⊢
  by_contra hlt
  rw [not_le] at hlt
  obtain ⟨hread, n, hn⟩ := onGrid_ofFloat_of_between hv (toFloat_ofFloat hv) hd hlt.le h
  have hunit : (0 : ℚ) < 10 ^ (-10 : Int) := zpow_pos (by norm_num) _
  have hzero : (Decimal.ofFloat v).coefficient = 0 := by
    rw [hn, mul_lt_iff_lt_one_left hunit] at hlt
    rw [Nat.cast_lt_one] at hlt
    rw [hlt, Nat.cast_zero, zero_mul, Decimal.magnitude] at hn
    exact_mod_cast (mul_eq_zero.1 hn).resolve_right (zpow_pos (by norm_num) _).ne'
  have hpower (negative : Bool) : magnitudeBits (Decimal.toFloat ⟨negative, 1, -10⟩) ≠ 0 := by
    cases negative <;> decide +kernel
  have hbits := Decimal.magnitudeBits_toFloat_of_zero hzero
  rw [toFloat_ofFloat hv, ← hread] at hbits
  exact hpower _ hbits

/-- The float of a number with few significant digits is not written with more of them. -/
theorem onGrid_significant_ofFloat (hv : v.isFinite = true) {digits : Nat}
    (h : d.isNegligible = false) (hd : (d.roundSignificant digits).toFloat = v) :
    (Decimal.ofFloat v).isNegligible = false ∧
      (Decimal.ofFloat v).OnGrid (-(Decimal.ofFloat v).significantPlaces digits) := by
  rw [Decimal.roundSignificant_of_not_isNegligible _ h] at hd
  have hnegligible := not_isNegligible_ofFloat hv hd (Decimal.not_isNegligible_cut _ h)
  refine ⟨hnegligible, Decimal.onGrid_significant ((Decimal.onGrid_cut _ _ d).ofFloat hv hd)
    fun hcarry => ?_⟩
  -- a later leading place is a power of ten between what was read and what is written
  have hle := Decimal.leading_le_magnitude
    (Decimal.coefficient_ne_zero_of_not_isNegligible hnegligible)
  have hge : (d.cut .halfAway (d.significantPlaces digits)).magnitude ≤
      10 ^ (Decimal.ofFloat v).leadingPlace :=
    (Decimal.magnitude_cut_significant_le d digits).trans
      (zpow_le_zpow_right₀ (by norm_num) hcarry)
  exact (onGrid_ofFloat_of_between hv hd (toFloat_ofFloat hv) hge hle).2

theorem ofFloat_zero : Decimal.ofFloat Decimal.zero.toFloat = .zero := by decide +kernel

/-- What was rounded to significant digits stays the same when it is rounded again. -/
theorem toFloat_roundSignificant_ofFloat (hv : v.isFinite = true) (digits : Nat)
    (hd : (d.roundSignificant digits).toFloat = v) :
    ((Decimal.ofFloat v).roundSignificant digits).toFloat = v := by
  cases h : d.isNegligible with
  | true =>
    rw [Decimal.roundSignificant, if_pos h] at hd
    rw [← hd, ofFloat_zero, Decimal.roundSignificant_zero]
  | false =>
    obtain ⟨hnegligible, hgrid⟩ := onGrid_significant_ofFloat hv h hd
    rw [Decimal.roundSignificant_of_not_isNegligible _ hnegligible]
    exact toFloat_cut_ofFloat hv _ hgrid

/-- A number that was rounded is kept when it is rounded again. -/
theorem mapDecimal_mapDecimal {f : Decimal → Decimal}
    (hf : ∀ d, (f d).toFloat.isFinite = true →
      (f (Decimal.ofFloat (f d).toFloat)).toFloat = (f d).toFloat)
    (h : (mapDecimal f v).isFinite = true) : mapDecimal f (mapDecimal f v) = mapDecimal f v := by
  by_cases hkept : f (Decimal.ofFloat v) = Decimal.ofFloat v
  · have hv : mapDecimal f v = v := if_pos hkept
    rw [hv, hv]
  · have hv : mapDecimal f v = (f (Decimal.ofFloat v)).toFloat := if_neg hkept
    rw [hv] at h ⊢
    rw [mapDecimal]
    split
    · rfl
    · exact hf _ h

namespace ArithmeticSettings

theorem toFloat_policy_ofFloat (s : ArithmeticSettings)
    (h : (s.policy d).toFloat.isFinite = true) :
    (s.policy (Decimal.ofFloat (s.policy d).toFloat)).toFloat = (s.policy d).toFloat := by
  obtain ⟨mode, precision, significant⟩ := s
  cases mode with
  | normal => exact toFloat_ofFloat h
  | truncate | round =>
    cases significant with
    | true => exact toFloat_roundSignificant_ofFloat h precision rfl
    | false => exact toFloat_cut_ofFloat h _ ((Decimal.onGrid_cut _ _ d).ofFloat h rfl)

/-- What is rounded stays as it is when it is rounded again. -/
theorem applyFormat_applyFormat (s : ArithmeticSettings) (v : Float) :
    s.applyFormat (s.applyFormat v) = s.applyFormat v := by
  cases h : (s.applyFormat v).isFinite with
  | false => exact applyFormat_of_not_isFinite h
  | true =>
    cases hv : v.isFinite with
    | false => rw [applyFormat_of_not_isFinite hv, applyFormat_of_not_isFinite hv]
    | true =>
      have hmap : s.applyFormat v = mapDecimal s.policy v := if_pos hv
      rw [hmap] at h ⊢
      rw [applyFormat, if_pos h]
      exact mapDecimal_mapDecimal (fun _ => s.toFloat_policy_ofFloat) h

def textOf (s : ArithmeticSettings) (v : Float) : Except Fault String :=
  if v.isFinite then
    let b := Binary.ofFloat v
    if b.isWhole then .ok (integerText b.truncate) else b.fixedText (s.displayDecimals v)
  else .ok (nonFiniteText v)

theorem formatNumber_of_rounded {s : ArithmeticSettings} (h : s.applyFormat v = v) :
    s.formatNumber v = s.textOf v := by
  simp only [formatNumber, textOf, h]
  cases v.isFinite <;> rfl

end ArithmeticSettings

end

end Calculator
