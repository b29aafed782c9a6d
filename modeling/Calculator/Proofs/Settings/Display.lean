import Calculator.Proofs.Float.HalfUnit
import Calculator.Proofs.Number.Canonical
import Calculator.Proofs.Number.HalfEven
import Calculator.Proofs.Outcome
import Calculator.Proofs.Settings.Idempotent

/-!
# Numbers are shown as canonical numerals

A rounded number is shown with its exact value if it is whole, and with a fixed number of places if
it is not. Both are decimals without tens, hundreds and so on, so what is shown is the numeral of a
decimal. Outside of the normal mode a rounded number has no more places than it is shown with, and
only zero is shown as zero.
-/

namespace Calculator

namespace ArithmeticSettings

variable {s : ArithmeticSettings} {v : Float}

theorem applyFormat_eq (hv : v.isFinite = true) :
    s.applyFormat v = (s.policy (Decimal.ofFloat v)).toFloat := by
  rw [applyFormat, if_pos hv, mapDecimal_eq hv]

theorem applyFormat_normal (hmode : s.mode = .normal) (v : Float) : s.applyFormat v = v := by
  cases hv : v.isFinite with
  | false => exact applyFormat_of_not_isFinite hv
  | true => exact applyFormat_of_policy hv (by rw [policy, hmode]; rfl)

theorem policy_of_places (hmode : s.mode ≠ .normal) (hsig : s.significant = false) :
    ∃ r, s.policy = Decimal.cut r s.precision := by
  obtain ⟨mode, precision, significant⟩ := s
  cases hsig
  cases mode with
  | normal => exact absurd rfl hmode
  | truncate => exact ⟨_, Decimal.truncateAt_natCast precision⟩
  | round => exact ⟨_, Decimal.roundAt_natCast precision⟩

/-- Rounding to significant digits gives zero, or a number that is not negligible and is written
with so many digits. -/
theorem applyFormat_of_significant (hmode : s.mode ≠ .normal) (hsig : s.significant = true)
    (hv : v.isFinite = true) (hw : (s.applyFormat v).isFinite = true) :
    Decimal.ofFloat (s.applyFormat v) = .zero ∨
      (Decimal.ofFloat (s.applyFormat v)).isNegligible = false ∧
      (Decimal.ofFloat (s.applyFormat v)).OnGrid
        (-(Decimal.ofFloat (s.applyFormat v)).significantPlaces s.precision) := by
  have hround := applyFormat_eq (s := s) hv
  rw [policy_of_significant hmode hsig] at hround
  cases h : (Decimal.ofFloat v).isNegligible with
  | true =>
    left
    rw [hround, Decimal.roundSignificant, if_pos h, ofFloat_zero]
  | false => exact .inr (onGrid_significant_ofFloat hw h hround.symm)

theorem displayDecimals_of_places (hmode : s.mode ≠ .normal) (hsig : s.significant = false)
    (w : Float) : s.displayDecimals w = s.precision := by
  simp only [displayDecimals, if_neg hmode, hsig, Bool.false_eq_true, if_false]

theorem displayDecimals_of_significant (hmode : s.mode ≠ .normal) (hsig : s.significant = true)
    {w : Float} (h : (Decimal.ofFloat w).isNegligible = false) :
    s.displayDecimals w = ((Decimal.ofFloat w).significantPlaces s.precision).toNat := by
  simp only [displayDecimals, if_neg hmode, hsig, h, if_true, Bool.false_eq_true, if_false]

/-- A rounded number is written with no more places than it is shown with. -/
theorem onGrid_displayDecimals (hmode : s.mode ≠ .normal) (hv : v.isFinite = true)
    (hw : (s.applyFormat v).isFinite = true) :
    (Decimal.ofFloat (s.applyFormat v)).OnGrid (-s.displayDecimals (s.applyFormat v)) := by
  cases hsig : s.significant with
  | true =>
    rcases applyFormat_of_significant hmode hsig hv hw with hzero | ⟨hnegligible, hgrid⟩
    · rw [hzero]
      exact ⟨0, by simp [Decimal.magnitude, Decimal.zero]⟩
    · refine hgrid.mono ?_
      rw [displayDecimals_of_significant hmode hsig hnegligible]
      omega
  | false =>
    obtain ⟨r, hr⟩ := policy_of_places hmode hsig
    have hround := applyFormat_eq (s := s) hv
    rw [hr] at hround
    rw [displayDecimals_of_places hmode hsig]
    exact (Decimal.onGrid_cut r _ _).ofFloat hw hround.symm

theorem signBit_applyFormat (hv : v.isFinite = true)
    (hs : (Binary.ofFloat (s.applyFormat v)).significand ≠ 0) :
    signBit (s.applyFormat v) = signBit v := by
  have hround := applyFormat_eq (s := s) hv
  by_cases hmode : s.mode = .normal
  · rw [applyFormat_normal hmode]
  rw [hround, Decimal.signBit_toFloat, ← negative_ofFloat hv]
  cases hsig : s.significant with
  | true =>
    rw [policy_of_significant hmode hsig] at hround ⊢
    cases h : (Decimal.ofFloat v).isNegligible with
    | true =>
      rw [Decimal.roundSignificant, if_pos h] at hround
      exact absurd (significand_of_toFloat hround.symm rfl) hs
    | false =>
      rw [Decimal.roundSignificant_of_not_isNegligible _ h, Decimal.cut_negative]
  | false =>
    obtain ⟨r, hr⟩ := policy_of_places hmode hsig
    rw [hr, Decimal.cut_negative]

/-- The decimal that is shown for a rounded number: the exact value of a whole number, else the
nearest decimal with so many places. -/
def shown (s : ArithmeticSettings) (w : Float) : Decimal :=
  let b := Binary.ofFloat w
  if b.isWhole then ⟨b.negative, b.numerator / b.denominator, 0⟩
  else b.fixed (min (s.displayDecimals w) lastDecimalPlace)

theorem shown_of_whole {w : Float} (h : (Binary.ofFloat w).isWhole = true) : s.shown w =
    ⟨(Binary.ofFloat w).negative, (Binary.ofFloat w).numerator / (Binary.ofFloat w).denominator,
      0⟩ := if_pos h

theorem shown_of_not_whole {w : Float} (h : (Binary.ofFloat w).isWhole = false) : s.shown w =
    (Binary.ofFloat w).fixed (min (s.displayDecimals w) lastDecimalPlace) := by
  simp only [shown, h, Bool.false_eq_true, if_false]

theorem exponent_shown_nonpos (w : Float) : (s.shown w).exponent ≤ 0 := by
  unfold shown
  dsimp only
  split
  · exact le_refl _
  · exact neg_nonpos.2 (Int.natCast_nonneg _)

theorem integerText_truncate (b : Binary) : integerText b.truncate =
    (Decimal.numeral ⟨b.negative, b.numerator / b.denominator, 0⟩).text := by
  have hsign : decide (b.truncate < 0) = (b.negative && b.numerator / b.denominator != 0) := by
    rw [Bool.eq_iff_iff, Binary.truncate, Binary.signed]
    generalize b.numerator / b.denominator = q
    cases b.negative <;> simp [Nat.pos_iff_ne_zero]
  rw [Decimal.numeral_of_exponent_zero rfl, integerText, hsign, Binary.natAbs_truncate]
  rfl

/-- A number is shown as the numeral of its decimal, unless there are too many places. -/
theorem formatNumber_eq (hv : v.isFinite = true) (hw : (s.applyFormat v).isFinite = true)
    (h : (Binary.ofFloat (s.applyFormat v)).isWhole = true ∨
      s.displayDecimals (s.applyFormat v) ≤ maxDecimals) :
    s.formatNumber v = .ok (s.shown (s.applyFormat v)).numeral.text := by
  have hlimits : maxDecimals ≤ maxDecimalsNumber := by decide
  simp only [formatNumber, hv, hw, Bool.not_true, Bool.false_eq_true, if_false]
  cases hwhole : (Binary.ofFloat (s.applyFormat v)).isWhole with
  | true => rw [if_pos rfl, shown_of_whole hwhole, integerText_truncate]
  | false =>
    obtain hwhole' | hplaces := h
    · exact absurd (hwhole'.symm.trans hwhole) (by decide)
    · have hnumeral := Decimal.canonicalNumeral_eq (s.exponent_shown_nonpos (s.applyFormat v))
      rw [if_neg Bool.false_ne_true, Binary.fixedText, if_neg (by omega), if_neg (by omega),
        Numeral.text, ← hnumeral, shown_of_not_whole hwhole]

theorem exists_formatNumber_iff (hv : v.isFinite = true)
    (hw : (s.applyFormat v).isFinite = true) : (∃ text, s.formatNumber v = .ok text) ↔
      (Binary.ofFloat (s.applyFormat v)).isWhole = true ∨
        s.displayDecimals (s.applyFormat v) ≤ maxDecimals := by
  constructor
  · rintro ⟨text, htext⟩
    by_contra hnot
    rw [not_or, Bool.not_eq_true, not_le] at hnot
    obtain ⟨hwhole, hplaces⟩ := hnot
    obtain ⟨f, hf⟩ := formatNumber_of_lt hv hw hwhole hplaces
    rw [hf] at htext
    cases htext
  · exact fun h => ⟨_, formatNumber_eq hv hw h⟩

theorem magnitude_shown_of_whole {w : Float} (h : (Binary.ofFloat w).isWhole = true) :
    (s.shown w).magnitude = (Binary.ofFloat w).magnitude := by
  rw [shown_of_whole h, Decimal.magnitude, zpow_zero, mul_one, Binary.cast_quotient h]

theorem negative_shown (w : Float) : (s.shown w).negative = signBit w := by
  rw [← Binary.negative_ofFloat]
  unfold shown
  dsimp only
  split <;> rfl

theorem coefficient_shown_of_zero {w : Float} (hs : (Binary.ofFloat w).significand = 0) :
    (s.shown w).coefficient = 0 := by
  have hwhole := Binary.isWhole_of_significand hs
  rw [← Decimal.magnitude_eq_zero_iff, magnitude_shown_of_whole hwhole, Binary.magnitude, hs,
    Nat.cast_zero, zero_mul]

theorem lastDecimalPlace_le_unit (w : Float) :
    (10 : ℚ) ^ (-lastDecimalPlace : Int) ≤ 2 ^ (Binary.ofFloat w).exponent := by
  obtain ⟨-, hexponent, -⟩ := fields_ofFloat w
  calc (10 : ℚ) ^ (-lastDecimalPlace : Int) ≤ 2 ^ (-1074 : Int) := by
        rw [lastDecimalPlace, Nat.cast_ofNat, zpow_neg, zpow_neg]
        exact inv_anti₀ (zpow_pos two_pos _)
          (zpow_le_zpow_left₀ (by norm_num) (by norm_num) (by norm_num))
    _ ≤ 2 ^ (Binary.ofFloat w).exponent := zpow_le_zpow_right₀ (by norm_num) hexponent

/-- A rounded number other than zero is not shown as zero. -/
theorem coefficient_shown_ne_zero (hmode : s.mode ≠ .normal) (hv : v.isFinite = true)
    (hw : (s.applyFormat v).isFinite = true)
    (hs : (Binary.ofFloat (s.applyFormat v)).significand ≠ 0) :
    (s.shown (s.applyFormat v)).coefficient ≠ 0 := by
  have hgrid := onGrid_displayDecimals hmode hv hw
  have hread := toFloat_ofFloat hw
  generalize s.applyFormat v = w at *
  have hdouble := Decimal.magnitude_lt_double hw hread hs
  cases hwhole : (Binary.ofFloat w).isWhole with
  | true =>
    rw [Ne, ← Decimal.magnitude_eq_zero_iff, magnitude_shown_of_whole hwhole]
    exact ((zpow_pos two_pos _).trans_le (unit_le_magnitude hs)).ne'
  | false =>
    rw [shown_of_not_whole hwhole, Ne, Binary.coefficient_fixed_eq_zero_iff, not_le]
    have hcoefficient : (Decimal.ofFloat w).coefficient ≠ 0 := fun h0 =>
      hs (significand_of_toFloat hread h0)
    rcases Nat.le_total (s.displayDecimals w) lastDecimalPlace with hle | hge
    · -- the number has a unit at least, so its float has more than half of it
      have hunit := hgrid.unit_le hcoefficient
      rw [Nat.min_eq_left hle]
      linarith
    · have hpos : (0 : ℚ) < 10 ^ (-lastDecimalPlace : Int) := zpow_pos (by norm_num) _
      have hlast := lastDecimalPlace_le_unit w
      have hunit := unit_le_magnitude hs
      rw [Nat.min_eq_right hge]
      linarith

/-- The numeral is canonical for the number under the settings: none of its digits and signs can be
left out, it has no more places than the settings ask for, it is zero exactly for a number that is
rounded to zero, and without rounding it is right to four places. -/
structure Shows (s : ArithmeticSettings) (v : Float) (n : Numeral) : Prop where
  canonical : n.IsCanonical
  whole : (Binary.ofFloat (s.applyFormat v)).isWhole = true → n.fraction = []
  sign : n.text = "0" ∨ n.negative = signBit v
  places : s.mode ≠ .normal → s.significant = false → n.fraction.length ≤ s.precision
  significant_places : s.mode ≠ .normal → s.significant = true →
    n.fraction.length ≤ (significantPlacesOf s.precision (s.applyFormat v)).toNat
  zero : s.mode ≠ .normal → (n.text = "0" ↔ (Binary.ofFloat (s.applyFormat v)).value = 0)
  normal_places : s.mode = .normal → n.fraction.length ≤ 4
  normal_zero : s.mode = .normal →
    (n.text = "0" ↔ |(Binary.ofFloat v).value| ≤ 10 ^ (-4 : Int) / 2)
  normal_close : s.mode = .normal →
    |(Decimal.ofText n.text).value - (Binary.ofFloat v).value| ≤ 10 ^ (-4 : Int) / 2

theorem length_fraction_shown (s : ArithmeticSettings) (w : Float) :
    (s.shown w).numeral.fraction.length ≤ s.displayDecimals w ∧
      ((Binary.ofFloat w).isWhole = true → (s.shown w).numeral.fraction = []) := by
  have hlength := Decimal.length_fraction_numeral (s.exponent_shown_nonpos w)
  cases hwhole : (Binary.ofFloat w).isWhole with
  | true =>
    have hexponent : (s.shown w).exponent = 0 := by rw [shown_of_whole hwhole]
    rw [hexponent, neg_zero, Int.toNat_zero, Nat.le_zero, List.length_eq_zero_iff] at hlength
    exact ⟨by rw [hlength]; exact Nat.zero_le _, fun _ => hlength⟩
  | false =>
    refine ⟨hlength.trans ?_, fun h => absurd h Bool.false_ne_true⟩
    rw [shown_of_not_whole hwhole, Binary.fixed, neg_neg, Int.toNat_natCast]
    exact Nat.min_le_left _ _

theorem displayDecimals_le_significantPlacesOf (hmode : s.mode ≠ .normal)
    (hsig : s.significant = true) {w : Float} (hw : w.isFinite = true) :
    s.displayDecimals w ≤ (significantPlacesOf s.precision w).toNat := by
  rw [significantPlacesOf, if_pos hw]
  cases h : (Decimal.ofFloat w).isNegligible with
  | true =>
    simp only [displayDecimals, if_neg hmode, hsig, h, if_true]
    exact Nat.zero_le _
  | false => exact (displayDecimals_of_significant hmode hsig h).le

theorem displayDecimals_of_normal (hmode : s.mode = .normal) (w : Float) :
    s.displayDecimals w = 4 := if_pos hmode

/-- Without rounding, zero stands for what is at most half a unit of the fourth place away. -/
theorem coefficient_shown_eq_zero_iff (hmode : s.mode = .normal) (w : Float) :
    (s.shown w).coefficient = 0 ↔ (Binary.ofFloat w).magnitude ≤ 10 ^ (-4 : Int) / 2 := by
  cases hwhole : (Binary.ofFloat w).isWhole with
  | true =>
    have hquotient := Binary.cast_quotient hwhole
    rw [shown_of_whole hwhole, ← hquotient]
    dsimp only
    generalize (Binary.ofFloat w).numerator / (Binary.ofFloat w).denominator = q
    constructor
    · rintro rfl
      norm_num
    · intro hle
      by_contra hq
      have hone : (1 : ℚ) ≤ q := by exact_mod_cast Nat.one_le_iff_ne_zero.2 hq
      norm_num at hle
      linarith
  | false =>
    rw [shown_of_not_whole hwhole, displayDecimals_of_normal hmode]
    exact Binary.coefficient_fixed_eq_zero_iff _ 4

theorem abs_value_shown_sub_le (hmode : s.mode = .normal) (w : Float) :
    |(s.shown w).value - (Binary.ofFloat w).value| ≤ 10 ^ (-4 : Int) / 2 := by
  cases hwhole : (Binary.ofFloat w).isWhole with
  | true =>
    have hvalue : (s.shown w).value = (Binary.ofFloat w).value := by
      rw [Decimal.value, Binary.value, negative_shown, Binary.negative_ofFloat,
        magnitude_shown_of_whole hwhole]
    rw [hvalue, sub_self, abs_zero]
    positivity
  | false =>
    rw [shown_of_not_whole hwhole, displayDecimals_of_normal hmode]
    exact Binary.abs_value_fixed_sub_le _ 4

theorem shows_numeral (hv : v.isFinite = true) (hw : (s.applyFormat v).isFinite = true) :
    s.Shows v (s.shown (s.applyFormat v)).numeral where
  canonical := Decimal.isCanonical_numeral (s.exponent_shown_nonpos _)
  whole := (s.length_fraction_shown _).2
  sign := by
    rw [Decimal.text_numeral_eq_zero_iff (s.exponent_shown_nonpos _)]
    by_cases h : (s.shown (s.applyFormat v)).coefficient = 0
    · exact .inl h
    · right
      have hs : (Binary.ofFloat (s.applyFormat v)).significand ≠ 0 := fun h0 =>
        h (coefficient_shown_of_zero h0)
      rw [← signBit_applyFormat hv hs, ← s.negative_shown, Decimal.numeral, bne_iff_ne.2 h,
        Bool.and_true]
  places hmode hsig :=
    (s.length_fraction_shown _).1.trans_eq (displayDecimals_of_places hmode hsig _)
  significant_places hmode hsig :=
    (s.length_fraction_shown _).1.trans (displayDecimals_le_significantPlacesOf hmode hsig hw)
  zero hmode := by
    rw [Decimal.text_numeral_eq_zero_iff (s.exponent_shown_nonpos _), ← abs_eq_zero,
      Binary.abs_value, Binary.magnitude_eq_zero_iff]
    constructor
    · intro h
      by_contra hs
      exact coefficient_shown_ne_zero hmode hv hw hs h
    · exact coefficient_shown_of_zero
  normal_places hmode :=
    (s.length_fraction_shown _).1.trans_eq (displayDecimals_of_normal hmode _)
  normal_zero hmode := by
    rw [Decimal.text_numeral_eq_zero_iff (s.exponent_shown_nonpos _),
      coefficient_shown_eq_zero_iff hmode, applyFormat_normal hmode, Binary.abs_value]
  normal_close hmode := by
    rw [Decimal.value_ofText_numeral (s.exponent_shown_nonpos _), applyFormat_normal hmode]
    exact abs_value_shown_sub_le hmode v

/-- A number that is rounded to a finite one is shown unless it is not whole and needs more places
than can be shown. What is shown is a canonical numeral. -/
theorem formatNumber_canonical (hv : v.isFinite = true)
    (hw : (s.applyFormat v).isFinite = true) :
    ((∃ text, s.formatNumber v = .ok text) ↔
      (Binary.ofFloat (s.applyFormat v)).isWhole = true ∨
        s.displayDecimals (s.applyFormat v) ≤ maxDecimals) ∧
    ∀ text, s.formatNumber v = .ok text → ∃ n : Numeral, text = n.text ∧ s.Shows v n := by
  have hiff := exists_formatNumber_iff hv hw
  refine ⟨hiff, fun text htext => ⟨_, ?_, shows_numeral hv hw⟩⟩
  rw [formatNumber_eq hv hw (hiff.1 ⟨text, htext⟩)] at htext
  exact (Except.ok.inj htext).symm

/-- The tie of `-1.005` is rounded away from zero. With `2 ^ 31 - 1` significant digits `0.05` would
need one place more than can be shown. -/
theorem formatNumber_canonical_tie :
    (⟨.round, 2, false⟩ : ArithmeticSettings).formatNumber (-1.005) = .ok "-1.01" ∧
      (∃ n : Numeral, "-1.01" = n.text ∧ Shows ⟨.round, 2, false⟩ (-1.005) n) ∧
      ¬∃ text, (⟨.round, 2147483647, true⟩ : ArithmeticSettings).formatNumber 0.05 = .ok text := by
  have htext : (⟨.round, 2, false⟩ : ArithmeticSettings).formatNumber (-1.005) = .ok "-1.01" :=
    toOption_eq_some_iff.1 (by decide +kernel)
  refine ⟨htext, (formatNumber_canonical (by decide) (by decide +kernel)).2 _ htext, ?_⟩
  rw [(formatNumber_canonical (by decide) (by decide +kernel)).1]
  decide +kernel

end ArithmeticSettings

end Calculator
