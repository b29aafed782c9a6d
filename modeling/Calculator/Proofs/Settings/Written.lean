import Calculator.Proofs.Number.Nearest
import Calculator.Proofs.Outcome
import Calculator.Proofs.Printing.Literal

/-!
# What is shown and what is written

A rounded number is shown with the exact value of the float, in so many places as the settings ask
for. A literal is printed with the decimal under which the float is written. The two denote the same
number as long as the places do not reach behind the digits of a float: always for significant
digits of a number that is not whole, and for whole numbers without an exponent.
-/

namespace Calculator

/-- A finite number is printed as a literal of the decimal under which it is written. -/
theorem literalText_written {w : Float} (hw : w.isFinite = true) : ∃ literal,
    literalText w = .ok literal ∧
      (Decimal.ofText literal).value = (Decimal.ofFloat w).value := by
  obtain ⟨d, hd, hnegative, hmagnitude, htext⟩ := literalText_eq_numeral hw
  refine ⟨_, htext, ?_⟩
  rw [Decimal.value_ofText_numeral hd]
  exact Decimal.value_congr hnegative hmagnitude

namespace ArithmeticSettings

variable {s : ArithmeticSettings} {v w : Float}

/-- The float is shown with the value under which it is written: a whole one if this value is exact,
another one if it is the nearest multiple of the last unit that is shown. -/
def ShowsWritten (s : ArithmeticSettings) (w : Float) : Prop :=
  if (Binary.ofFloat w).isWhole then
    (Binary.ofFloat w).magnitude = (Decimal.ofFloat w).magnitude
  else
    ∃ n : Nat, (Decimal.ofFloat w).magnitude = n * 10 ^ (-s.displayDecimals w : Int) ∧
      IsNearestEven ((Binary.ofFloat w).magnitude * 10 ^ (s.displayDecimals w : Int)) n

theorem value_shown_eq_iff (hw : w.isFinite = true)
    (hplaces : s.displayDecimals w ≤ lastDecimalPlace) :
    (s.shown w).value = (Decimal.ofFloat w).value ↔ s.ShowsWritten w := by
  have hnegative : (s.shown w).negative = (Decimal.ofFloat w).negative := by
    rw [negative_shown, negative_ofFloat hw]
  have hvalue : (s.shown w).value = (Decimal.ofFloat w).value ↔
      (s.shown w).magnitude = (Decimal.ofFloat w).magnitude :=
    ⟨Decimal.magnitude_congr, Decimal.value_congr hnegative⟩
  rw [hvalue, ShowsWritten]
  cases hwhole : (Binary.ofFloat w).isWhole with
  | true => rw [if_pos rfl, magnitude_shown_of_whole hwhole]
  | false =>
    rw [if_neg Bool.false_ne_true, shown_of_not_whole hwhole, Nat.min_eq_left hplaces]
    constructor
    · exact fun h => ⟨_, h.symm, (Binary.coefficient_fixed_eq_iff _ _).1 rfl⟩
    · rintro ⟨n, hn, hnearest⟩
      rw [hn, Binary.magnitude_fixed, (Binary.coefficient_fixed_eq_iff _ _).2 hnearest]

theorem showsWritten_of_whole (hw : w.isFinite = true) (hwhole : (Binary.ofFloat w).isWhole = true)
    (hlt : (Binary.ofFloat w).magnitude < 10 ^ 16) : s.ShowsWritten w := by
  have hquotient := Binary.cast_quotient hwhole
  rw [ShowsWritten, if_pos hwhole, ← hquotient]
  rw [← hquotient] at hlt
  exact (magnitude_ofFloat_of_whole hw hquotient.symm (by exact_mod_cast hlt)).symm

/-- A float whose unit is smaller than the last one shown is nearest to the decimal under which it
is written. -/
theorem showsWritten_of_unit_lt (hw : w.isFinite = true)
    (hwhole : (Binary.ofFloat w).isWhole = false)
    (hgrid : (Decimal.ofFloat w).OnGrid (-s.displayDecimals w))
    (hunit : (2 : ℚ) ^ (Binary.ofFloat w).exponent < 10 ^ (-s.displayDecimals w : Int)) :
    s.ShowsWritten w := by
  have hclose := Decimal.abs_magnitude_sub_ofFloat_le hw (toFloat_ofFloat hw)
  have hpos : (0 : ℚ) < 10 ^ (s.displayDecimals w : Int) := zpow_pos (by norm_num) _
  have hinverse : (10 : ℚ) ^ (-s.displayDecimals w : Int) *
      10 ^ (s.displayDecimals w : Int) = 1 := by
    rw [← zpow_add₀ (by norm_num), neg_add_cancel, zpow_zero]
  obtain ⟨n, hn⟩ := hgrid
  rw [ShowsWritten, hwhole, if_neg Bool.false_ne_true]
  refine ⟨n, hn, isNearestEven_of_abs_lt ?_⟩
  have hscaled : (n : ℚ) = (Decimal.ofFloat w).magnitude * 10 ^ (s.displayDecimals w : Int) := by
    rw [hn, mul_assoc, hinverse, mul_one]
  calc |(Binary.ofFloat w).magnitude * 10 ^ (s.displayDecimals w : Int) - n|
      = |(Decimal.ofFloat w).magnitude - (Binary.ofFloat w).magnitude| *
          10 ^ (s.displayDecimals w : Int) := by
        rw [hscaled, ← sub_mul, abs_mul, abs_of_pos hpos, abs_sub_comm]
    _ < 10 ^ (-s.displayDecimals w : Int) / 2 * 10 ^ (s.displayDecimals w : Int) :=
        mul_lt_mul_of_pos_right (by linarith) hpos
    _ = 1 / 2 := by
        rw [div_mul_eq_mul_div, hinverse]

theorem exponent_neg_of_not_whole (h : (Binary.ofFloat w).isWhole = false) :
    (Binary.ofFloat w).exponent < 0 := by
  by_contra hnonneg
  rw [Binary.isWhole_of_exponent_nonneg (not_lt.1 hnonneg)] at h
  cases h

theorem not_isNegligible_of_not_whole (hmode : s.mode ≠ .normal) (hsig : s.significant = true)
    (hv : v.isFinite = true) (hw : (s.applyFormat v).isFinite = true)
    (hwhole : (Binary.ofFloat (s.applyFormat v)).isWhole = false) :
    (Decimal.ofFloat (s.applyFormat v)).isNegligible = false := by
  rcases applyFormat_of_significant hmode hsig hv hw with hzero | h
  · have hs := significand_of_toFloat (toFloat_ofFloat hw) (by rw [hzero]; rfl)
    rw [Binary.isWhole_of_significand hs] at hwhole
    cases hwhole
  · exact h.1

/-- Fifteen significant digits of a number that is not whole are shown as they are written. -/
theorem showsWritten_of_significant (hmode : s.mode ≠ .normal) (hsig : s.significant = true)
    (hp : s.precision ≤ 15) (hv : v.isFinite = true) (hw : (s.applyFormat v).isFinite = true)
    (hwhole : (Binary.ofFloat (s.applyFormat v)).isWhole = false) :
    s.ShowsWritten (s.applyFormat v) := by
  have hgrid := onGrid_displayDecimals hmode hv hw
  have hnegligible := not_isNegligible_of_not_whole hmode hsig hv hw hwhole
  refine showsWritten_of_unit_lt hw hwhole hgrid ?_
  rw [displayDecimals_of_significant hmode hsig hnegligible]
  generalize s.applyFormat v = w at *
  have hplace := Decimal.le_leadingPlace hnegligible
  have hbelow := (Decimal.ofFloat w).magnitude_lt_leading
  rcases Int.lt_or_le ((Decimal.ofFloat w).significantPlaces s.precision) 0 with hlt | hge
  · rw [Int.toNat_of_nonpos hlt.le, Nat.cast_zero, neg_zero, zpow_zero]
    exact zpow_lt_one_of_neg₀ (by norm_num) (exponent_neg_of_not_whole hwhole)
  · rw [Int.toNat_of_nonneg hge, Decimal.neg_significantPlaces]
    refine unit_lt_of_magnitude_lt hw (toFloat_ofFloat hw) (by omega) (hbelow.trans_le ?_)
    rw [← zpow_natCast, ← zpow_add₀ (by norm_num)]
    exact zpow_le_zpow_right₀ (by norm_num) (by push_cast; omega)

/-- With decimal places, numbers of at most fifteen digits are shown as they are written. -/
theorem showsWritten_of_places (hmode : s.mode ≠ .normal) (hsig : s.significant = false)
    (hp : s.precision ≤ 15) (hv : v.isFinite = true) (hw : (s.applyFormat v).isFinite = true)
    (hwhole : (Binary.ofFloat (s.applyFormat v)).isWhole = false)
    (hlt : (Decimal.ofFloat (s.applyFormat v)).magnitude < 10 ^ (15 - s.precision : Int)) :
    s.ShowsWritten (s.applyFormat v) := by
  refine showsWritten_of_unit_lt hw hwhole (onGrid_displayDecimals hmode hv hw) ?_
  rw [displayDecimals_of_places hmode hsig]
  refine unit_lt_of_magnitude_lt hw (toFloat_ofFloat hw) (by omega) (hlt.trans_eq ?_)
  rw [← zpow_natCast, ← zpow_add₀ (by norm_num)]
  congr 1

/-- Where a rounded number has no more digits than a float is sure to have. -/
def HasRoom (s : ArithmeticSettings) (w : Float) : Prop :=
  if (Binary.ofFloat w).isWhole then (Binary.ofFloat w).magnitude < 10 ^ 16
  else s.significant = true ∨ (Decimal.ofFloat w).magnitude < 10 ^ (15 - s.precision : Int)

theorem HasRoom.showsWritten (h : s.HasRoom (s.applyFormat v)) (hmode : s.mode ≠ .normal)
    (hp : s.precision ≤ 15) (hv : v.isFinite = true) (hw : (s.applyFormat v).isFinite = true) :
    s.ShowsWritten (s.applyFormat v) := by
  unfold HasRoom at h
  split at h
  · next hwhole => exact showsWritten_of_whole hw hwhole h
  · next hwhole =>
    have hwhole := Bool.eq_false_of_not_eq_true hwhole
    cases hsig : s.significant with
    | true => exact showsWritten_of_significant hmode hsig hp hv hw hwhole
    | false =>
      refine showsWritten_of_places hmode hsig hp hv hw hwhole (h.resolve_left ?_)
      rw [hsig]
      exact Bool.false_ne_true

theorem hasDigits_applyFormat (hmode : s.mode ≠ .normal) (hsig : s.significant = true)
    (hv : v.isFinite = true) (hw : (s.applyFormat v).isFinite = true) :
    (Decimal.ofFloat (s.applyFormat v)).HasDigits (max s.precision 1) := by
  rcases applyFormat_of_significant hmode hsig hv hw with hzero | ⟨-, hgrid⟩
  · rw [hzero]
    exact ⟨0, 0, by positivity, by simp [Decimal.magnitude, Decimal.zero]⟩
  · exact Decimal.hasDigits_of_onGrid_significant hgrid

theorem onGrid_shown (w : Float) : (s.shown w).OnGrid (-s.displayDecimals w) := by
  apply Decimal.onGrid_of_le_exponent
  unfold shown
  dsimp only
  split
  · exact neg_nonpos.2 (Int.natCast_nonneg _)
  · exact neg_le_neg (Int.ofNat_le.2 (Nat.min_le_left _ _))

/-- With a precision of at most fifteen every number that is rounded to a finite one is shown. What
is shown is the decimal under which the rounded number is written, and which its literal denotes,
exactly if this decimal is what the binary value is rounded to; where there is room it is. With
decimal places there are never more places than the settings ask for. -/
theorem formatNumber_written (hmode : s.mode ≠ .normal) (hp : s.precision ≤ 15)
    (hv : v.isFinite = true) (hw : (s.applyFormat v).isFinite = true) :
    ∃ text literal, s.formatNumber v = .ok text ∧ literalText (s.applyFormat v) = .ok literal ∧
      (Decimal.ofText literal).value = (Decimal.ofFloat (s.applyFormat v)).value ∧
      ((Decimal.ofText text).value = (Decimal.ofFloat (s.applyFormat v)).value ↔
        s.ShowsWritten (s.applyFormat v)) ∧
      (s.HasRoom (s.applyFormat v) → s.ShowsWritten (s.applyFormat v)) ∧
      (s.significant = false → (Decimal.ofText text).OnGrid (-s.precision)) ∧
      (s.significant = true → s.ShowsWritten (s.applyFormat v) →
        (Decimal.ofText text).HasDigits (max s.precision 1)) := by
  have hplaces := s.displayDecimals_le_add (s.applyFormat v)
  have hdefault : normalDecimals = 4 := rfl
  have hlimit : 24 ≤ maxDecimals := by decide
  have hlast : 24 ≤ lastDecimalPlace := by decide
  have htext := formatNumber_eq hv hw (.inr (by omega))
  have hvalue := Decimal.value_ofText_numeral (s.exponent_shown_nonpos (s.applyFormat v))
  have hiff := value_shown_eq_iff (s := s) hw (by omega)
  obtain ⟨literal, hliteral, hwritten⟩ := literalText_written hw
  refine ⟨_, literal, htext, hliteral, hwritten, by rw [hvalue, hiff],
    fun h => h.showsWritten hmode hp hv hw, fun hsig => ?_, fun hsig h => ?_⟩
  · obtain ⟨n, hn⟩ := s.onGrid_shown (s.applyFormat v)
    refine ⟨n, ?_⟩
    rw [← displayDecimals_of_places hmode hsig (s.applyFormat v), ← hn,
      Decimal.magnitude_congr hvalue]
  · obtain ⟨n, place, hlt, hn⟩ := hasDigits_applyFormat hmode hsig hv hw
    refine ⟨n, place, hlt, ?_⟩
    rw [← hn, Decimal.magnitude_congr (hvalue.trans (hiff.2 h))]

/-- Fifteen places reach behind the digits of `16.1`, so that its binary value is seen. -/
theorem formatNumber_written_binary :
    (⟨.round, 15, false⟩ : ArithmeticSettings).formatNumber 16.1 = .ok "16.100000000000001" ∧
      literalText 16.1 = .ok "16.1" ∧ ¬ShowsWritten ⟨.round, 15, false⟩ 16.1 := by
  have hwritten : Decimal.ofFloat 16.1 = ⟨false, 161, -1⟩ := by decide +kernel
  have hround : (⟨.round, 15, false⟩ : ArithmeticSettings).applyFormat 16.1 = 16.1 :=
    applyFormat_of_policy (by decide) (by decide +kernel)
  have hshown : (⟨.round, 15, false⟩ : ArithmeticSettings).formatNumber 16.1 =
      .ok "16.100000000000001" := toOption_eq_some_iff.1 (by decide +kernel)
  have hliteral : literalText 16.1 = .ok "16.1" := toOption_eq_some_iff.1 (by decide +kernel)
  obtain ⟨text, literal, htext, -, -, hiff, -⟩ := formatNumber_written (s := ⟨.round, 15, false⟩)
    (v := 16.1) (by decide) (by decide) (by decide) (by rw [hround]; decide)
  obtain rfl := Except.ok.inj (htext.symm.trans hshown)
  have hread : Decimal.ofText "16.100000000000001" = ⟨false, 16100000000000001, -15⟩ := by
    decide +kernel
  refine ⟨hshown, hliteral, ?_⟩
  rw [hround, hwritten, hread] at hiff
  rw [← hiff, Decimal.value_of_not_negative rfl, Decimal.value_of_not_negative rfl,
    Decimal.magnitude, Decimal.magnitude]
  norm_num

end ArithmeticSettings

end Calculator
