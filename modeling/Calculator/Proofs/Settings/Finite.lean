import Calculator.Proofs.Number.Cut
import Calculator.Proofs.Number.Leading
import Calculator.Settings.Format

/-!
# Settings that keep numbers finite

Rounding to decimal places never leaves the range of floats, and truncation neither. Rounding to
significant digits can carry the largest floats past it, for the numbers of digits at which the
largest float is rounded up. A precision must also not ask for more places than can be shown.
-/

namespace Calculator

/-- The numbers of significant digits at which the largest float is rounded down. -/
def keepsLargest (digits : Nat) : Bool := digits ∈ [6, 7, 8, 9, 12, 13, 14] || 17 ≤ digits

/-- Under the settings finite numbers are rounded to finite numbers, which can be shown. A number
that is not negligible has its first digit at the tenth decimal place or before it, so it is shown
with up to nine places more than there are significant digits. -/
def ArithmeticSettings.KeepsFinite (s : ArithmeticSettings) : Prop :=
  s.mode = .normal ∨
    if s.significant then keepsLargest s.precision = true ∧ s.precision + 9 ≤ maxDecimals
    else s.precision ≤ maxDecimals

namespace Decimal

theorem isFinite_largestDecimal : largestDecimal.toFloat.isFinite = true := by decide +kernel

theorem isFinite_cut (r : Rounding) {places : Int} (hp : 0 ≤ places) {d : Decimal}
    (h : d.magnitude ≤ largestDecimal.magnitude) : (d.cut r places).toFloat.isFinite = true := by
  have hcut : largestDecimal.cut r places = largestDecimal :=
    cut_of_le (by simp only [largestDecimal]; omega)
  have hmono := magnitude_cut_mono r places h
  rw [hcut] at hmono
  exact isFinite_of_le hmono isFinite_largestDecimal

theorem leadingPlace_largestDecimal : largestDecimal.leadingPlace = 308 := by decide

theorem isNegligible_largestDecimal : largestDecimal.isNegligible = false := by decide +kernel

/-- The largest float stays finite exactly for the given numbers of significant digits. -/
theorem isFinite_roundSignificant_largest (digits : Nat) :
    (largestDecimal.roundSignificant digits).toFloat.isFinite = keepsLargest digits := by
  rcases Nat.lt_or_ge digits 17 with hlt | hge
  · have hsmall : ∀ n < 17, (largestDecimal.roundSignificant (n : Nat)).toFloat.isFinite =
        keepsLargest n := by decide +kernel
    exact hsmall digits hlt
  · have hcut : largestDecimal.roundSignificant digits = largestDecimal := by
      rw [roundSignificant, isNegligible_largestDecimal, if_neg Bool.false_ne_true]
      apply cut_of_le
      rw [significantPlaces, leadingPlace_largestDecimal]
      simp only [largestDecimal]
      omega
    rw [hcut, isFinite_largestDecimal, keepsLargest, decide_eq_true hge, Bool.or_true]

theorem leadingPlace_le_largest {d : Decimal} (hd : d.coefficient ≠ 0)
    (h : d.magnitude ≤ largestDecimal.magnitude) : d.leadingPlace ≤ 308 := by
  have hlarge := largestDecimal.magnitude_lt_leading
  rw [leadingPlace_largestDecimal] at hlarge
  have hlt := (zpow_lt_zpow_iff_right₀ (by norm_num : (1 : ℚ) < 10)).1
    (((leading_le_magnitude hd).trans h).trans_lt hlarge)
  omega

/-- Rounding to significant digits carries a number at most to the power of ten above it, which is a
multiple of the unit. -/
theorem magnitude_cut_significant_le (d : Decimal) (digits : Nat) :
    (d.cut .halfAway (d.significantPlaces digits)).magnitude ≤ 10 ^ (d.leadingPlace + 1) := by
  have hbound : (10 : ℚ) ^ (d.leadingPlace + 1) =
      ((10 ^ (max digits 1) : Nat) : ℚ) * 10 ^ (-d.significantPlaces digits) := by
    have hexp : d.leadingPlace + 1 =
        ((max digits 1 : Nat) : Int) + -d.significantPlaces digits := by
      rw [significantPlaces]
      push_cast
      ring
    rw [hexp, zpow_add₀ (by norm_num), zpow_natCast]
    push_cast
    rfl
  have hle := d.magnitude_lt_leading.le
  rw [hbound] at hle ⊢
  exact magnitude_cut_le .halfAway hle

/-- Rounding to significant digits leaves the range of floats at the largest float if anywhere. -/
theorem isFinite_roundSignificant {digits : Nat} {d : Decimal}
    (hk : keepsLargest digits = true) (h : d.magnitude ≤ largestDecimal.magnitude) :
    (d.roundSignificant digits).toFloat.isFinite = true := by
  rw [roundSignificant]
  split
  · decide
  · next hn =>
    have hcoefficient : d.coefficient ≠ 0 := by
      intro hzero
      rw [isNegligible_iff, magnitude, hzero, Nat.cast_zero, zero_mul] at hn
      exact hn (zpow_pos (by norm_num) _)
    rcases (leadingPlace_le_largest hcoefficient h).eq_or_lt with heq | hlt
    · -- the largest float is rounded at the same place
      have hlargest := isFinite_roundSignificant_largest digits
      rw [roundSignificant, isNegligible_largestDecimal, if_neg Bool.false_ne_true, hk] at hlargest
      have hplaces : d.significantPlaces digits = largestDecimal.significantPlaces digits := by
        rw [significantPlaces, significantPlaces, heq, leadingPlace_largestDecimal]
      rw [hplaces]
      exact isFinite_of_le (magnitude_cut_mono .halfAway _ h) hlargest
    · refine isFinite_of_le ((d.magnitude_cut_significant_le digits).trans ?_)
        isFinite_largestDecimal
      calc (10 : ℚ) ^ (d.leadingPlace + 1) ≤ 10 ^ (308 : Int) :=
            zpow_le_zpow_right₀ (by norm_num) (by omega)
        _ = 10 ^ largestDecimal.leadingPlace := by rw [leadingPlace_largestDecimal]
        _ ≤ largestDecimal.magnitude := leading_le_magnitude (by decide)

end Decimal

namespace ArithmeticSettings

variable {s : ArithmeticSettings} {v : Float}

theorem applyFormat_of_not_isFinite (hv : v.isFinite = false) : s.applyFormat v = v := by
  rw [applyFormat, hv, if_neg Bool.false_ne_true]

theorem applyFormat_of_policy (hv : v.isFinite = true)
    (h : s.policy (Decimal.ofFloat v) = Decimal.ofFloat v) : s.applyFormat v = v := by
  rw [applyFormat, if_pos hv, mapDecimal]
  exact if_pos h

/-- Finite numbers are rounded to finite numbers. -/
theorem isFinite_applyFormat (hs : s.KeepsFinite) (hv : v.isFinite = true) :
    (s.applyFormat v).isFinite = true := by
  have hle := magnitude_ofFloat_le hv
  simp only [applyFormat, if_pos hv, mapDecimal]
  split
  · exact hv
  · next hne =>
    obtain ⟨mode, precision, significant⟩ := s
    cases mode with
    | normal => exact absurd rfl hne
    | truncate | round =>
      cases significant with
      | true =>
        obtain hn | hs := hs
        · cases hn
        · exact Decimal.isFinite_roundSignificant hs.1 hle
      | false => exact Decimal.isFinite_cut _ (le_max_right _ _) hle

theorem displayDecimals_le (hs : s.KeepsFinite) (v : Float) :
    s.displayDecimals v ≤ maxDecimals := by
  rw [displayDecimals]
  split
  · decide
  · next hmode =>
    obtain hn | hs := hs
    · exact absurd hn hmode
    · split
      · next hsig =>
        rw [if_pos hsig] at hs
        dsimp only
        split
        · exact Nat.zero_le _
        · next hneg =>
          have hplace := Decimal.le_leadingPlace (Bool.eq_false_of_not_eq_true hneg)
          have hpositive : s.precision ≠ 0 := by
            intro hzero
            have hk := hs.1
            rw [hzero] at hk
            exact absurd hk (by decide)
          have hlimit := hs.2
          rw [Decimal.significantPlaces]
          omega
      · next hsig =>
        rwa [if_neg hsig] at hs

theorem displayDecimals_le_add (s : ArithmeticSettings) (v : Float) :
    s.displayDecimals v ≤ max s.precision normalDecimals + 9 := by
  rw [displayDecimals]
  split
  · omega
  · split
    · dsimp only
      split
      · exact Nat.zero_le _
      · next hnegligible =>
        have hplace := Decimal.le_leadingPlace (Bool.eq_false_of_not_eq_true hnegligible)
        have hdigits : 1 ≤ normalDecimals := by decide
        rw [Decimal.significantPlaces]
        omega
    · omega

/-- Finite numbers can be shown. -/
theorem exists_formatNumber (hs : s.KeepsFinite) (hv : v.isFinite = true) :
    ∃ text, s.formatNumber v = .ok text := by
  have hfinite := isFinite_applyFormat hs hv
  have hplaces := displayDecimals_le hs (s.applyFormat v)
  have hlimits : maxDecimals ≤ maxDecimalsNumber := by decide
  simp only [formatNumber, hv, hfinite, Bool.not_true, Bool.false_eq_true, if_false]
  split
  · exact ⟨_, rfl⟩
  · rw [Binary.fixedText, if_neg (by omega), if_neg (by omega)]
    exact ⟨_, rfl⟩

theorem formatNumber_of_lt (hv : v.isFinite = true) (hw : (s.applyFormat v).isFinite = true)
    (hwhole : (Binary.ofFloat (s.applyFormat v)).isWhole = false)
    (hplaces : maxDecimals < s.displayDecimals (s.applyFormat v)) :
    ∃ f, s.formatNumber v = .error f := by
  simp only [formatNumber, hv, hw, hwhole, Bool.not_true, Bool.false_eq_true, if_false,
    Binary.fixedText]
  split <;> exact ⟨_, rfl⟩

theorem policy_of_significant (hmode : s.mode ≠ .normal) (hsig : s.significant = true) :
    s.policy = Decimal.roundSignificant s.precision := by
  obtain ⟨mode, precision, significant⟩ := s
  cases hsig
  cases mode with
  | normal => exact absurd rfl hmode
  | truncate | round => rfl

/-- The largest float is rounded past itself where its digits are rounded up. -/
theorem applyFormat_extremeFloat (hmode : s.mode ≠ .normal) (hsig : s.significant = true)
    (hk : keepsLargest s.precision = false) :
    (s.applyFormat (extremeFloat false)).isFinite = false := by
  have hfinite : (extremeFloat false).isFinite = true := by decide
  have hround := Decimal.isFinite_roundSignificant_largest s.precision
  rw [hk] at hround
  have hne : largestDecimal.roundSignificant s.precision ≠ largestDecimal := by
    intro heq
    rw [heq, Decimal.isFinite_largestDecimal] at hround
    cases hround
  have hdecimal : Decimal.ofFloat (extremeFloat false) = largestDecimal :=
    ofFloat_extremeFloat false
  simp only [applyFormat, if_pos hfinite, mapDecimal, policy_of_significant hmode hsig, hdecimal,
    if_neg hne]
  exact hround

theorem formatNumber_tenth_place (hmode : s.mode ≠ .normal) (hsig : s.significant = true)
    (hp : maxDecimals < s.precision + 9) :
    s.applyFormat 1.5e-10 = 1.5e-10 ∧ ∃ f, s.formatNumber 1.5e-10 = .error f := by
  have hfinite : (1.5e-10 : Float).isFinite = true := by decide
  have hdecimal : Decimal.ofFloat 1.5e-10 = ⟨false, 15, -11⟩ := by decide +kernel
  have hneg : (⟨false, 15, -11⟩ : Decimal).isNegligible = false := by decide
  have hplace : (⟨false, 15, -11⟩ : Decimal).leadingPlace = -10 := by decide
  have hlimit : 9 < maxDecimals - 9 := by decide
  have hformat : s.applyFormat 1.5e-10 = 1.5e-10 := by
    apply applyFormat_of_policy hfinite
    rw [policy_of_significant hmode hsig, hdecimal, Decimal.roundSignificant, hneg,
      if_neg Bool.false_ne_true]
    apply Decimal.cut_of_le
    rw [Decimal.significantPlaces, hplace]
    simp only
    omega
  refine ⟨hformat, formatNumber_of_lt hfinite ?_ ?_ ?_⟩ <;> rw [hformat]
  · exact hfinite
  · decide
  simp only [displayDecimals, if_neg hmode, hsig, if_true, hdecimal, hneg, Bool.false_eq_true,
    if_false, Decimal.significantPlaces, hplace]
  omega

theorem formatNumber_half (hmode : s.mode ≠ .normal) (hsig : s.significant = false)
    (hp : maxDecimals < s.precision) :
    s.applyFormat 0.5 = 0.5 ∧ ∃ f, s.formatNumber 0.5 = .error f := by
  have hfinite : (0.5 : Float).isFinite = true := by decide
  have hdecimal : Decimal.ofFloat 0.5 = ⟨false, 5, -1⟩ := by decide +kernel
  have hlimit : 1 ≤ maxDecimals := by decide
  have hcut (r : Rounding) : Decimal.cut r (max s.precision 0) ⟨false, 5, -1⟩ = ⟨false, 5, -1⟩ :=
    Decimal.cut_of_le (by simp only; omega)
  have hformat : s.applyFormat 0.5 = 0.5 := by
    apply applyFormat_of_policy hfinite
    rw [hdecimal]
    obtain ⟨mode, precision, significant⟩ := s
    cases hsig
    cases mode with
    | normal => exact absurd rfl hmode
    | truncate | round => exact hcut _
  refine ⟨hformat, formatNumber_of_lt hfinite ?_ ?_ ?_⟩ <;> rw [hformat]
  · exact hfinite
  · decide
  simpa only [displayDecimals, if_neg hmode, hsig, Bool.false_eq_true, if_false] using hp

/-- Other settings take a finite number out of the range of floats, or cannot show it. -/
theorem exists_of_not_keepsFinite (hs : ¬s.KeepsFinite) :
    ∃ v : Float, v.isFinite = true ∧ signBit v = false ∧ ((s.applyFormat v).isFinite = false ∨
      (s.applyFormat v = v ∧ ∃ f, s.formatNumber v = .error f)) := by
  rw [KeepsFinite, not_or] at hs
  obtain ⟨hmode, hs⟩ := hs
  cases hsig : s.significant with
  | true =>
    rw [if_pos hsig] at hs
    cases hk : keepsLargest s.precision with
    | true =>
      exact ⟨1.5e-10, by decide, by decide,
        .inr (formatNumber_tenth_place hmode hsig (not_le.1 fun hle => hs ⟨hk, hle⟩))⟩
    | false =>
      exact ⟨extremeFloat false, by decide, by decide,
        .inl (applyFormat_extremeFloat hmode hsig hk)⟩
  | false =>
    rw [hsig, if_neg Bool.false_ne_true, not_le] at hs
    exact ⟨0.5, by decide, by decide, .inr (formatNumber_half hmode hsig hs)⟩

end ArithmeticSettings

end Calculator
