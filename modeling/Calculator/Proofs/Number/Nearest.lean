import Calculator.Proofs.Number.Signed
import Calculator.Proofs.Settings.Idempotent

/-!
# Cutting is rounding

Cutting half away from zero at a place gives the nearest of the decimals with no digits past this
place, and of two the one farther from zero; cutting towards zero gives the next one in front. With
the place of the last significant digit the first becomes the nearest decimal with so many digits.
-/

namespace Calculator

namespace Decimal

/-- Of the decimals that are allowed, `r` is nearest to `d`, and farther from zero than another one
that is as near. -/
structure IsNearest (Allowed : Decimal → Prop) (d r : Decimal) : Prop where
  allowed : Allowed r
  nearest : ∀ e, Allowed e → |r.value - d.value| ≤ |e.value - d.value|
  farther : ∀ e, Allowed e → |e.value - d.value| = |r.value - d.value| → |e.value| ≤ |r.value|

/-- `t` is what is left of `d` without the digits past a place. -/
structure IsTruncation (place : Int) (d t : Decimal) : Prop where
  negative : t.negative = d.negative
  onGrid : t.OnGrid place
  le : |t.value| ≤ |d.value|
  lt : |d.value| < |t.value| + 10 ^ place

/-- The number has at most so many significant digits. -/
def HasDigits (digits : Nat) (d : Decimal) : Prop :=
  ∃ (n : Nat) (place : Int), n < 10 ^ digits ∧ d.magnitude = n * 10 ^ place

variable {d e r : Decimal}

/-- Half a unit added before the rest is dropped gives the nearest whole number, the larger one of
two. -/
theorem floor_half_nearest {x : ℚ} (hx : 0 ≤ x) (m : Nat) :
    |(⌊x + 1 / 2⌋₊ : ℚ) - x| ≤ 1 / 2 ∧ |(⌊x + 1 / 2⌋₊ : ℚ) - x| ≤ |(m : ℚ) - x| ∧
      (|(m : ℚ) - x| ≤ |(⌊x + 1 / 2⌋₊ : ℚ) - x| → m ≤ ⌊x + 1 / 2⌋₊) := by
  have hle := Nat.floor_le (by linarith : 0 ≤ x + 1 / 2)
  have hlt := Nat.lt_floor_add_one (x + 1 / 2)
  generalize ⌊x + 1 / 2⌋₊ = n at *
  have hclose : |(n : ℚ) - x| ≤ 1 / 2 := abs_le.2 ⟨by linarith, by linarith⟩
  refine ⟨hclose, ?_, fun hm => ?_⟩
  · rcases lt_trichotomy m n with hmn | rfl | hmn
    · have hq : (m : ℚ) + 1 ≤ n := by exact_mod_cast hmn
      rw [abs_of_nonpos (by linarith : (m : ℚ) - x ≤ 0)]
      exact abs_le.2 ⟨by linarith, by linarith⟩
    · exact le_refl _
    · have hq : (n : ℚ) + 1 ≤ m := by exact_mod_cast hmn
      rw [abs_of_nonneg (by linarith : 0 ≤ (m : ℚ) - x)]
      exact abs_le.2 ⟨by linarith, by linarith⟩
  · by_contra hmn
    have hq : (n : ℚ) + 1 ≤ m := by exact_mod_cast not_le.1 hmn
    rw [abs_of_nonneg (by linarith : 0 ≤ (m : ℚ) - x)] at hm
    linarith

theorem zpow_mul_zpow_neg (places : Int) : (10 : ℚ) ^ places * 10 ^ (-places) = 1 := by
  rw [← zpow_add₀ (by norm_num), add_neg_cancel, zpow_zero]

theorem magnitude_eq_units (places : Int) (d : Decimal) :
    d.magnitude = d.magnitude * 10 ^ places * 10 ^ (-places) := by
  rw [mul_assoc, zpow_mul_zpow_neg, mul_one]

theorem abs_sub_units (m : ℚ) (places : Int) (d : Decimal) :
    |m * 10 ^ (-places) - d.magnitude| =
      |m - d.magnitude * 10 ^ places| * 10 ^ (-places) := by
  have hunit : (0 : ℚ) < 10 ^ (-places) := zpow_pos (by norm_num) _
  rw [d.magnitude_eq_units places, ← sub_mul, abs_mul, abs_of_pos hunit, ← d.magnitude_eq_units]

theorem abs_value_cut_sub (rounding : Rounding) (places : Int) (d : Decimal) :
    |(d.cut rounding places).value - d.value| =
      |(d.cut rounding places).magnitude - d.magnitude| :=
  abs_value_sub (cut_negative rounding places d)

/-- A decimal is moved by at most half a unit. -/
theorem abs_cut_sub_le (places : Int) (d : Decimal) :
    |(d.cut .halfAway places).value - d.value| ≤ 10 ^ (-places) / 2 := by
  have hunit : (0 : ℚ) < 10 ^ (-places) := zpow_pos (by norm_num) _
  have hscaled : 0 ≤ d.magnitude * 10 ^ places :=
    mul_nonneg d.magnitude_nonneg (zpow_pos (by norm_num) _).le
  rw [abs_value_cut_sub, magnitude_cut, abs_sub_units]
  have hclose := (floor_half_nearest hscaled 0).1
  calc _ ≤ 1 / 2 * (10 : ℚ) ^ (-places) := mul_le_mul_of_nonneg_right hclose hunit.le
    _ = 10 ^ (-places) / 2 := by ring

theorem abs_magnitude_cut_sub_le {places : Int} (he : e.OnGrid (-places)) :
    |(d.cut .halfAway places).magnitude - d.magnitude| ≤ |e.magnitude - d.magnitude| ∧
      (|e.magnitude - d.magnitude| ≤ |(d.cut .halfAway places).magnitude - d.magnitude| →
        e.magnitude ≤ (d.cut .halfAway places).magnitude) := by
  obtain ⟨m, hm⟩ := he
  have hunit : (0 : ℚ) < 10 ^ (-places) := zpow_pos (by norm_num) _
  have hscaled : 0 ≤ d.magnitude * 10 ^ places :=
    mul_nonneg d.magnitude_nonneg (zpow_pos (by norm_num) _).le
  obtain ⟨-, hnearest, hfarther⟩ := floor_half_nearest hscaled m
  rw [magnitude_cut, hm, abs_sub_units, abs_sub_units]
  refine ⟨mul_le_mul_of_nonneg_right hnearest hunit.le, fun hle => ?_⟩
  refine mul_le_mul_of_nonneg_right ?_ hunit.le
  exact_mod_cast hfarther (le_of_mul_le_mul_right hle hunit)

theorem isNearest_cut (places : Int) (d : Decimal) :
    IsNearest (OnGrid (-places)) d (d.cut .halfAway places) where
  allowed := onGrid_cut _ _ _
  nearest e he := by
    rw [abs_value_cut_sub]
    exact (abs_magnitude_cut_sub_le he).1.trans (abs_magnitude_sub_le e d)
  farther e he heq := by
    rw [abs_value, abs_value]
    rw [abs_value_cut_sub] at heq
    exact (abs_magnitude_cut_sub_le he).2 ((abs_magnitude_sub_le e d).trans_eq heq)

theorem isTruncation_cut (places : Int) (d : Decimal) :
    IsTruncation (-places) d (d.cut .towardZero places) := by
  have hunit : (0 : ℚ) < 10 ^ (-places) := zpow_pos (by norm_num) _
  have hscaled : 0 ≤ d.magnitude * 10 ^ places :=
    mul_nonneg d.magnitude_nonneg (zpow_pos (by norm_num) _).le
  have hcut : (d.cut .towardZero places).magnitude =
      (⌊d.magnitude * 10 ^ places⌋₊ : ℚ) * 10 ^ (-places) := by
    rw [magnitude_cut, Rounding.shift, add_zero]
  refine ⟨cut_negative _ _ _, onGrid_cut _ _ _, ?_, ?_⟩
  · rw [abs_value, abs_value, hcut]
    refine (mul_le_mul_of_nonneg_right (Nat.floor_le hscaled) hunit.le).trans_eq ?_
    exact (d.magnitude_eq_units places).symm
  · rw [abs_value, abs_value, hcut, ← add_one_mul]
    refine (d.magnitude_eq_units places).trans_lt ?_
    exact mul_lt_mul_of_pos_right (Nat.lt_floor_add_one _) hunit

theorem neg_significantPlaces (digits : Nat) (d : Decimal) :
    -d.significantPlaces digits = d.leadingPlace + 1 - (max digits 1 : Nat) := by
  rw [significantPlaces]
  omega

theorem HasDigits.of_onGrid {digits : Nat} {place : Int} (h : d.OnGrid place)
    (hlt : d.magnitude < 10 ^ ((digits : Int) + place)) : d.HasDigits digits := by
  obtain ⟨n, hn⟩ := h
  refine ⟨n, place, ?_, hn⟩
  rw [hn, zpow_add₀ (by norm_num), zpow_natCast] at hlt
  exact_mod_cast lt_of_mul_lt_mul_right hlt (zpow_pos (by norm_num) _).le

theorem hasDigits_of_onGrid_significant {digits : Nat}
    (h : d.OnGrid (-d.significantPlaces digits)) : d.HasDigits (max digits 1) := by
  refine .of_onGrid h (d.magnitude_lt_leading.trans_eq ?_)
  rw [neg_significantPlaces]
  congr 1
  ring

/-- A number with few digits has none behind the last significant place of a number, or it does not
reach the leading place. -/
theorem HasDigits.onGrid_or_lt {digits : Nat} (h : e.HasDigits (max digits 1)) (d : Decimal) :
    e.OnGrid (-d.significantPlaces digits) ∨ e.magnitude < 10 ^ d.leadingPlace := by
  obtain ⟨n, place, hn, he⟩ := h
  rw [neg_significantPlaces]
  rcases Int.lt_or_le place (d.leadingPlace + 1 - (max digits 1 : Nat)) with hlt | hle
  · right
    have hten : (0 : ℚ) < 10 := by norm_num
    have hnq : (n : ℚ) < 10 ^ ((max digits 1 : Nat) : Int) := by
      rw [zpow_natCast]
      exact_mod_cast hn
    calc e.magnitude = n * 10 ^ place := he
      _ < 10 ^ ((max digits 1 : Nat) : Int) * 10 ^ place :=
        mul_lt_mul_of_pos_right hnq (zpow_pos hten _)
      _ = 10 ^ (((max digits 1 : Nat) : Int) + place) := (zpow_add₀ hten.ne' _ _).symm
      _ ≤ 10 ^ d.leadingPlace := zpow_le_zpow_right₀ (by norm_num) (by omega)
  · exact .inl (OnGrid.mono ⟨n, he⟩ hle)

/-- Cutting behind the last significant digit leaves at most so many digits, also where it is
carried into the next place. -/
theorem hasDigits_cut (digits : Nat) (d : Decimal) :
    (d.cut .halfAway (d.significantPlaces digits)).HasDigits (max digits 1) := by
  rcases (magnitude_cut_significant_le d digits).lt_or_eq with hlt | heq
  · refine .of_onGrid (onGrid_cut _ _ d) (hlt.trans_eq ?_)
    rw [neg_significantPlaces]
    congr 1
    ring
  · refine ⟨1, d.leadingPlace + 1, Nat.one_lt_pow (by omega) (by decide), ?_⟩
    rw [heq, Nat.cast_one, one_mul]

theorem onGrid_leading (digits : Nat) (d : Decimal) :
    OnGrid (-d.significantPlaces digits) ⟨d.negative, 1, d.leadingPlace⟩ := by
  apply onGrid_of_le_exponent
  rw [neg_significantPlaces]
  dsimp only
  omega

theorem isNearest_cut_significant (digits : Nat) (h : d.coefficient ≠ 0) :
    IsNearest (HasDigits (max digits 1)) d (d.cut .halfAway (d.significantPlaces digits)) := by
  have hgrid := isNearest_cut (d.significantPlaces digits) d
  have hleading := leading_le_magnitude h
  -- a number below the leading unit is farther away than this unit
  have hbelow : ∀ e : Decimal, e.magnitude < 10 ^ d.leadingPlace →
      |(d.cut .halfAway (d.significantPlaces digits)).value - d.value| < |e.value - d.value| := by
    intro e he
    have hunit := (abs_magnitude_cut_sub_le (d := d) (onGrid_leading digits d)).1
    have hvalue : Decimal.magnitude ⟨d.negative, 1, d.leadingPlace⟩ = 10 ^ d.leadingPlace := by
      rw [magnitude, Nat.cast_one, one_mul]
    rw [abs_value_cut_sub]
    refine (hunit.trans_lt ?_).trans_le (abs_magnitude_sub_le e d)
    rw [hvalue, abs_of_nonpos (by linarith), abs_of_nonpos (by linarith)]
    linarith
  refine ⟨hasDigits_cut digits d, fun e he => ?_, fun e he heq => ?_⟩
  · rcases he.onGrid_or_lt d with hon | hlt
    · exact hgrid.nearest e hon
    · exact (hbelow e hlt).le
  · rcases he.onGrid_or_lt d with hon | hlt
    · exact hgrid.farther e hon heq
    · exact absurd heq (hbelow e hlt).ne'

/-- A number that has no more digits stays. -/
theorem value_cut_of_hasDigits {digits : Nat} (h : d.coefficient ≠ 0)
    (hd : d.HasDigits (max digits 1)) :
    (d.cut .halfAway (d.significantPlaces digits)).value = d.value := by
  rcases hd.onGrid_or_lt d with hon | hlt
  · exact value_congr (cut_negative _ _ _) (magnitude_cut_of_onGrid _ hon)
  · exact absurd hlt (not_lt.2 (leading_le_magnitude h))

end Decimal

end Calculator
