import Calculator.Proofs.Number.Limits
import Calculator.Proofs.Number.Nearest

/-!
# Rounding is correct on the written digits

A finite number is rounded through the decimal under which it is written. To significant digits the
result is the nearest decimal with so many of them, to decimal places the nearest multiple of the
last unit, and truncation gives the multiple in front. All of it is said of the decimals, before
they are read back as floats, and no limit of decimal arithmetic is passed.
-/

namespace Calculator

variable {v : Float}

theorem roundBy_eq (hv : v.isFinite = true) (rounding : Decimal → Decimal) :
    roundBy rounding v = .ok (rounding (Decimal.ofFloat v)).toFloat := by
  rw [roundBy, if_pos hv, mapDecimal_eq hv]

/-- A float lies below the bound of what is told from zero exactly if its decimal does. -/
theorem abs_lt_epsilon_iff (hv : v.isFinite = true) :
    v.abs < epsilon ↔ (Decimal.ofFloat v).magnitude < 10 ^ (-10 : Int) := by
  have hinf := magnitudeBits_le_of_isFinite hv
  have hepsilon : epsilon.isFinite = true := by decide
  have hsign : signBit epsilon = false := by decide
  have hwritten : Decimal.ofFloat epsilon = ⟨false, 1, -10⟩ := by decide +kernel
  have hbound : (Decimal.ofFloat epsilon).magnitude = 10 ^ (-10 : Int) := by
    rw [hwritten, Decimal.magnitude, Nat.cast_one, one_mul]
  have hbits : magnitudeBits v.abs = magnitudeBits v := by
    rw [abs_eq hinf, magnitudeBits_floatOfBits hinf]
  rw [lt_iff_ordinal (isFinite_abs hv) hepsilon, ordinal_of_not_signBit (signBit_abs hinf),
    ordinal_of_not_signBit hsign, Int.ofNat_lt, hbits, ← hbound]
  constructor
  · intro hlt
    by_contra hge
    have hmono := Decimal.magnitudeBits_mono (not_lt.1 hge)
    rw [toFloat_ofFloat hv, toFloat_ofFloat hepsilon] at hmono
    omega
  · intro hlt
    by_contra hge
    exact absurd (Decimal.magnitude_ofFloat_mono hepsilon hv (not_lt.1 hge)) (not_le.2 hlt)

theorem Decimal.IsShort.le_significantPlaces {d : Decimal} (h : d.IsShort) (digits : Nat) :
    -308 ≤ d.significantPlaces digits := by
  have hleading := h.leadingPlace_le
  rw [significantPlaces]
  omega

/-- Rounding to significant digits is correct rounding: what is negligible becomes zero, and any
other number gets, on its own side of zero, the nearest decimal with so many digits, of two the one
farther from zero, which is the number itself if it has no more digits. -/
theorem roundSignificant_nearest (hv : v.isFinite = true) (digits : Nat) :
    (Decimal.ofFloat v).HasDigits 17 ∧
    (v.abs < epsilon ↔ (Decimal.ofFloat v).magnitude < 10 ^ (-10 : Int)) ∧
    ((Decimal.ofFloat v).magnitude < 10 ^ (-10 : Int) →
      roundBy (Decimal.roundSignificant digits) v = .ok 0) ∧
    (10 ^ (-10 : Int) ≤ (Decimal.ofFloat v).magnitude → ∃ r : Decimal,
      (Decimal.ofFloat v).cut? .halfAway ((Decimal.ofFloat v).significantPlaces digits) = some r ∧
      (Decimal.ofFloat v).roundSignificant digits = r ∧
      roundBy (Decimal.roundSignificant digits) v = .ok r.toFloat ∧
      r.negative = signBit v ∧ 0 < r.magnitude ∧
      Decimal.IsNearest (Decimal.HasDigits (max digits 1)) (Decimal.ofFloat v) r ∧
      ((Decimal.ofFloat v).HasDigits (max digits 1) → r.value = (Decimal.ofFloat v).value)) := by
  have hshort := isShort_ofFloat hv
  refine ⟨⟨_, _, hshort.coefficient_lt, rfl⟩, abs_lt_epsilon_iff hv, fun hlt => ?_, fun hge => ?_⟩
  · rw [roundBy_eq hv, Decimal.roundSignificant, if_pos ((Decimal.isNegligible_iff _).2 hlt)]
    exact congrArg _ (Decimal.denotes_iff.1 (by decide +kernel))
  · have hnegligible := Decimal.not_isNegligible_iff.2 hge
    have hcoefficient := Decimal.coefficient_ne_zero_of_not_isNegligible hnegligible
    have hround := Decimal.roundSignificant_of_not_isNegligible digits hnegligible
    refine ⟨_, hshort.cut?_eq _ (hshort.le_significantPlaces digits), hround, ?_, ?_, ?_,
      Decimal.isNearest_cut_significant digits hcoefficient,
      Decimal.value_cut_of_hasDigits hcoefficient⟩
    · rw [roundBy_eq hv, hround]
    · rw [Decimal.cut_negative, negative_ofFloat hv]
    · exact (zpow_pos (by norm_num) _).trans_le
        (Decimal.leading_le_magnitude_cut digits hcoefficient)

/-- With three digits `-9.995` is carried to `-10`. -/
theorem roundSignificant_nearest_carry :
    Decimal.ofFloat (-9.995) = ⟨true, 9995, -3⟩ ∧
      roundBy (Decimal.roundSignificant (3 : Nat)) (-9.995) = .ok (-10) ∧
      Decimal.IsNearest (Decimal.HasDigits 3) ⟨true, 9995, -3⟩ ⟨true, 1000, -2⟩ := by
  have hwritten : Decimal.ofFloat (-9.995) = ⟨true, 9995, -3⟩ := by decide +kernel
  obtain ⟨-, -, -, hround⟩ := roundSignificant_nearest (v := -9.995) (by decide) 3
  rw [hwritten] at hround
  obtain ⟨r, -, hr, hresult, -, -, hnearest, -⟩ := hround (by
    rw [Decimal.magnitude]
    norm_num)
  obtain rfl : ⟨true, 1000, -2⟩ = r := by
    rw [← hr]
    decide +kernel
  refine ⟨hwritten, hresult.trans ?_, hnearest⟩
  exact congrArg _ (Decimal.denotes_iff.1 (by decide +kernel))

/-- A way of rounding to decimal places at one float: it takes place within the limits of decimal
arithmetic, keeps what has no more places, turns with the sign, and keeps the order. -/
structure ExactAt (r : Rounding) (places : Nat) (round : Decimal → Decimal) (v : Float) : Prop where
  within : (Decimal.ofFloat v).cut? r places = some (round (Decimal.ofFloat v))
  result : roundBy round v = .ok (round (Decimal.ofFloat v)).toFloat
  kept : (Decimal.ofFloat v).OnGrid (-places) → roundBy round v = .ok v
  odd : round (Decimal.ofFloat (-v)) = (round (Decimal.ofFloat v)).negated
  odd_result : roundBy round (-v) = (roundBy round v).map (-·)
  monotone : ∀ w : Float, w.isFinite = true → v ≤ w →
    (round (Decimal.ofFloat v)).value ≤ (round (Decimal.ofFloat w)).value

theorem exactAt_cut (hv : v.isFinite = true) (r : Rounding) (places : Nat) :
    ExactAt r places (Decimal.cut r places) v where
  within := (isShort_ofFloat hv).cut?_eq r (by omega)
  result := roundBy_eq hv _
  kept h := by rw [roundBy_eq hv, toFloat_cut_ofFloat hv r h]
  odd := by rw [Decimal.ofFloat_neg (magnitudeBits_le_of_isFinite hv), Decimal.cut_negated]
  odd_result := by
    rw [roundBy_eq (isFinite_neg hv), roundBy_eq hv,
      Decimal.ofFloat_neg (magnitudeBits_le_of_isFinite hv), Decimal.cut_negated,
      Decimal.toFloat_negated]
    rfl
  monotone _ hw h := Decimal.value_cut_mono r places (Decimal.value_ofFloat_mono hv hw h)

/-- Truncation to decimal places gives the multiple of the unit in front of a number, rounding the
nearest one and of two the one farther from zero, no more than half a unit away. -/
theorem decimalPlaces_exact (hv : v.isFinite = true) (places : Nat) :
    ExactAt .towardZero places (Decimal.truncateAt places) v ∧
    Decimal.IsTruncation (-places) (Decimal.ofFloat v)
      ((Decimal.ofFloat v).truncateAt places) ∧
    ExactAt .halfAway places (Decimal.roundAt places) v ∧
    Decimal.IsNearest (Decimal.OnGrid (-places)) (Decimal.ofFloat v)
      ((Decimal.ofFloat v).roundAt places) ∧
    |((Decimal.ofFloat v).roundAt places).value - (Decimal.ofFloat v).value| ≤
      10 ^ (-places : Int) / 2 := by
  rw [Decimal.truncateAt_natCast, Decimal.roundAt_natCast]
  exact ⟨exactAt_cut hv _ places, Decimal.isTruncation_cut places _, exactAt_cut hv _ places,
    Decimal.isNearest_cut places _, Decimal.abs_cut_sub_le places _⟩

/-- The tie `-2.5` is rounded to `-3` and truncated to `-2`. -/
theorem decimalPlaces_exact_tie :
    roundBy (Decimal.roundAt (0 : Nat)) (-2.5) = .ok (-3) ∧
      roundBy (Decimal.truncateAt (0 : Nat)) (-2.5) = .ok (-2) ∧
      Decimal.IsNearest (Decimal.OnGrid 0) ⟨true, 25, -1⟩ ⟨true, 3, 0⟩ := by
  have hwritten : Decimal.ofFloat (-2.5) = ⟨true, 25, -1⟩ := by decide +kernel
  obtain ⟨htruncate, -, hround, hnearest, -⟩ := decimalPlaces_exact (v := -2.5) (by decide) 0
  rw [hwritten] at hnearest
  refine ⟨hround.result.trans ?_, htruncate.result.trans ?_, hnearest⟩
  · exact congrArg _ (Decimal.denotes_iff.1 (by decide +kernel))
  · exact congrArg _ (Decimal.denotes_iff.1 (by decide +kernel))

end Calculator
