import Calculator.Proofs.Float.Close

/-!
# The sign and the order of floats

Negation turns the sign bit of a float and keeps its magnitude. Finite floats are in the order of
their magnitudes with the signs put in front, so that zero has one place with either sign.
-/

namespace Calculator

open Float.Model (Format UnpackedFloat)
open Float.Model.UnpackedFloat (Sign)
open Fields (resigned)

variable {v w : Float}

theorem sign_eq_positive_iff (v : Float) :
    Fields.sign (wordOf v) = .positive ↔ signBit v = false := by
  have hnegative : Fields.sign (wordOf v) = .negative ↔ signBit v = true := by
    rw [Fields.sign_eq_negative_iff, signBit, beq_iff_eq]
    rfl
  cases hs : Fields.sign (wordOf v) <;> simp_all

theorem sign_eq (v : Float) :
    Fields.sign (wordOf v) = if signBit v then .negative else .positive := by
  have h := sign_eq_positive_iff v
  cases hs : Fields.sign (wordOf v) <;> cases hb : signBit v <;> simp_all

theorem neg_unpack (v : Float) : (UnpackedFloat.unpack Format.binary64 (wordOf v)).neg =
    resigned (-Fields.sign (wordOf v)) (UnpackedFloat.unpack Format.binary64 (wordOf v)) := by
  rw [Fields.unpack_eq]
  split
  · split <;> rfl
  · split
    · split <;> rfl
    · rfl

theorem neg_eq (h : magnitudeBits v ≤ infinityBits) :
    -v = floatOfBits (!signBit v) (magnitudeBits v) := by
  apply Float.toBits_inj.1
  apply UInt64.toNat_inj.1
  rw [toBits_floatOfBits h]
  change (UnpackedFloat.pack Format.binary64
    (UnpackedFloat.unpack Format.binary64 (wordOf v)).neg).toNat = _
  rw [neg_unpack, toBits_resigned h, sign_eq, twos_63]
  cases signBit v
  · change 1 * 2 ^ 63 + _ = _
    rw [Nat.one_mul]
    rfl
  · change 0 * 2 ^ 63 + _ = _
    rw [Nat.zero_mul, Nat.zero_add]
    rfl

theorem magnitudeBits_neg (h : magnitudeBits v ≤ infinityBits) :
    magnitudeBits (-v) = magnitudeBits v := by
  rw [neg_eq h, magnitudeBits_floatOfBits h]

theorem signBit_neg (h : magnitudeBits v ≤ infinityBits) : signBit (-v) = !signBit v := by
  rw [neg_eq h, signBit_floatOfBits h]

theorem isFinite_neg (hv : v.isFinite = true) : (-v).isFinite = true := by
  rw [isFinite_iff, magnitudeBits_neg (magnitudeBits_le_of_isFinite hv)]
  exact (isFinite_iff v).1 hv

theorem neg_neg_of_le (h : magnitudeBits v ≤ infinityBits) : -(-v) = v := by
  have hneg := magnitudeBits_neg h
  have h' : magnitudeBits (-v) ≤ infinityBits := hneg.trans_le h
  apply eq_of_bits
  · rw [signBit_neg h', signBit_neg h, Bool.not_not]
  · rw [magnitudeBits_neg h', hneg]

/-- The place of a float among the finite ones. -/
def ordinal (v : Float) : Int := if signBit v then -magnitudeBits v else magnitudeBits v

theorem unpack_of_isFinite (hv : v.isFinite = true) :
    UnpackedFloat.unpack Format.binary64 (wordOf v) =
      if h : (Binary.ofFloat v).significand = 0 then .zero (Fields.sign (wordOf v))
      else .finite (Fields.sign (wordOf v)) (Binary.ofFloat v).significand
        (Binary.ofFloat v).exponent (Nat.pos_of_ne_zero h) := by
  have hfin := (isFinite_iff v).1 hv
  have hinf : infinityBits = 2047 * 2 ^ 52 := rfl
  have hword := (wordOf v).isLt
  have hmagnitude := magnitudeBits_eq v
  have hexponent := Fields.toNat_exponent (wordOf v)
  have hfraction := Fields.toNat_fraction (wordOf v)
  have hmax : Fields.exponent (wordOf v) ≠ -1#11 := by
    rw [ne_eq, Fields.exponent_eq_iff, show (-1#11).toNat = 2047 from rfl]
    omega
  have hzero : Fields.exponent (wordOf v) = 0#11 ↔ magnitudeBits v / 2 ^ 52 = 0 := by
    rw [Fields.exponent_eq_iff, show (0#11).toNat = 0 from rfl]
    omega
  have hnone : Fields.fraction (wordOf v) = 0#52 ↔ magnitudeBits v % 2 ^ 52 = 0 := by
    rw [Fields.fraction_eq_zero_iff]
    omega
  rw [Fields.unpack_eq, if_neg hmax, ofFloat_eq]
  simp only [hzero, hnone]
  by_cases hsmall : magnitudeBits v / 2 ^ 52 = 0
  · simp only [if_pos hsmall]
    split
    · rfl
    · congr 1
      · omega
      · omega
  · simp only [if_neg hsmall]
    rw [dif_neg (by omega)]
    congr 1
    · omega
    · omega

/-- Larger fields make up a larger magnitude. -/
theorem compare_fields (v w : Float) :
    (compare (Binary.ofFloat v).exponent (Binary.ofFloat w).exponent).then
      (compare (Binary.ofFloat v).significand (Binary.ofFloat w).significand) =
      compare (magnitudeBits v) (magnitudeBits w) := by
  obtain ⟨hv, hev, hlowv⟩ := fields_ofFloat v
  obtain ⟨hw, hew, hloww⟩ := fields_ofFloat w
  rw [← magnitudeBits_eq_fields v, ← magnitudeBits_eq_fields w]
  generalize (Binary.ofFloat v).exponent = e at *
  generalize (Binary.ofFloat w).exponent = e' at *
  generalize (Binary.ofFloat v).significand = s at *
  generalize (Binary.ofFloat w).significand = s' at *
  rcases lt_trichotomy e e' with hlt | rfl | hgt
  · rw [compare_lt_iff_lt.2 hlt]
    refine (compare_lt_iff_lt.2 ?_).symm
    omega
  · rw [compare_eq_iff_eq.2 rfl]
    rcases lt_trichotomy s s' with hlt | rfl | hgt
    · rw [compare_lt_iff_lt.2 hlt]
      exact (compare_lt_iff_lt.2 (Nat.add_lt_add_left hlt _)).symm
    · rw [compare_eq_iff_eq.2 rfl, compare_eq_iff_eq.2 rfl]
      rfl
    · rw [compare_gt_iff_gt.2 hgt]
      exact (compare_gt_iff_gt.2 (Nat.add_lt_add_left hgt _)).symm
  · rw [compare_gt_iff_gt.2 hgt]
    refine (compare_gt_iff_gt.2 ?_).symm
    omega

theorem magnitudeBits_eq_zero_iff (v : Float) :
    magnitudeBits v = 0 ↔ (Binary.ofFloat v).significand = 0 := by
  obtain ⟨-, -, hlow⟩ := fields_ofFloat v
  have hbits := magnitudeBits_eq_fields v
  omega

theorem ordinal_eq_zero (h : (Binary.ofFloat v).significand = 0) : ordinal v = 0 := by
  rw [ordinal, (magnitudeBits_eq_zero_iff v).2 h]
  exact ite_self _

theorem ordinal_of_signBit (hs : signBit v = true) : ordinal v = -magnitudeBits v := if_pos hs

theorem ordinal_of_not_signBit (hs : signBit v = false) : ordinal v = magnitudeBits v :=
  if_neg (ne_true_of_eq_false hs)

theorem ordinal_pos (hs : signBit v = false) (h : (Binary.ofFloat v).significand ≠ 0) :
    0 < ordinal v := by
  rw [ordinal_of_not_signBit hs, Int.natCast_pos, Nat.pos_iff_ne_zero, ne_eq,
    magnitudeBits_eq_zero_iff]
  exact h

theorem ordinal_neg (hs : signBit v = true) (h : (Binary.ofFloat v).significand ≠ 0) :
    ordinal v < 0 := by
  rw [ordinal_of_signBit hs, Int.neg_lt_zero_iff, Int.natCast_pos, Nat.pos_iff_ne_zero, ne_eq,
    magnitudeBits_eq_zero_iff]
  exact h

theorem compare_natCast (m n : Nat) : compare (m : Int) n = compare m n := by
  rcases lt_trichotomy m n with hlt | rfl | hgt
  · rw [compare_lt_iff_lt.2 hlt, compare_lt_iff_lt.2 (Int.ofNat_lt.2 hlt)]
  · rw [compare_eq_iff_eq.2 rfl, compare_eq_iff_eq.2 rfl]
  · rw [compare_gt_iff_gt.2 hgt, compare_gt_iff_gt.2 (Int.ofNat_lt.2 hgt)]

theorem compare_neg (a b : Int) : compare (-a) (-b) = (compare a b).swap := by
  rcases lt_trichotomy a b with hlt | rfl | hgt
  · rw [compare_lt_iff_lt.2 hlt, compare_gt_iff_gt.2 (Int.neg_lt_neg hlt)]
    rfl
  · rw [compare_eq_iff_eq.2 rfl, compare_eq_iff_eq.2 rfl]
    rfl
  · rw [compare_gt_iff_gt.2 hgt, compare_lt_iff_lt.2 (Int.neg_lt_neg hgt)]
    rfl

/-- Two finite floats other than zero are compared as their places are. -/
theorem compare_of_ne_zero {e e' : Int} {s s' : Nat} (hs : 0 < s) (hs' : 0 < s')
    (hv : (Binary.ofFloat v).significand ≠ 0) (hw : (Binary.ofFloat w).significand ≠ 0)
    (h : (compare e e').then (compare s s') = compare (magnitudeBits v) (magnitudeBits w)) :
    (UnpackedFloat.finite (if signBit v then .negative else .positive) s e hs).compare
      (.finite (if signBit w then .negative else .positive) s' e' hs') =
      some (compare (ordinal v) (ordinal w)) := by
  cases hsv : signBit v <;> cases hsw : signBit w
  · rw [ordinal_of_not_signBit hsv, ordinal_of_not_signBit hsw, compare_natCast, ← h]
    rfl
  · rw [compare_gt_iff_gt.2 ((ordinal_neg hsw hw).trans (ordinal_pos hsv hv))]
    rfl
  · rw [compare_lt_iff_lt.2 ((ordinal_neg hsv hv).trans (ordinal_pos hsw hw))]
    rfl
  · rw [ordinal_of_signBit hsv, ordinal_of_signBit hsw, compare_neg, compare_natCast, ← h]
    rfl

theorem compare_ordinal (hv : v.isFinite = true) (hw : w.isFinite = true) :
    (UnpackedFloat.unpack Format.binary64 (wordOf v)).compare
      (UnpackedFloat.unpack Format.binary64 (wordOf w)) =
      some (compare (ordinal v) (ordinal w)) := by
  rw [unpack_of_isFinite hv, unpack_of_isFinite hw, sign_eq, sign_eq]
  by_cases h : (Binary.ofFloat v).significand = 0 <;>
    by_cases h' : (Binary.ofFloat w).significand = 0
  · rw [dif_pos h, dif_pos h', ordinal_eq_zero h, ordinal_eq_zero h']
    rfl
  · rw [dif_pos h, dif_neg h', ordinal_eq_zero h]
    cases hs : signBit w
    · rw [compare_lt_iff_lt.2 (ordinal_pos hs h')]
      rfl
    · rw [compare_gt_iff_gt.2 (ordinal_neg hs h')]
      rfl
  · rw [dif_neg h, dif_pos h', ordinal_eq_zero h']
    cases hs : signBit v
    · rw [compare_gt_iff_gt.2 (ordinal_pos hs h)]
      rfl
    · rw [compare_lt_iff_lt.2 (ordinal_neg hs h)]
      rfl
  · rw [dif_neg h, dif_neg h']
    exact compare_of_ne_zero _ _ h h' (compare_fields v w)

theorem le_iff_ordinal (hv : v.isFinite = true) (hw : w.isFinite = true) :
    v ≤ w ↔ ordinal v ≤ ordinal w := by
  have hle : v ≤ w ↔ (UnpackedFloat.unpack Format.binary64 (wordOf v)).le
      (UnpackedFloat.unpack Format.binary64 (wordOf w)) = true := decide_eq_true_iff
  rw [hle, UnpackedFloat.le, compare_ordinal hv hw, Option.any_some, Std.isLE_compare]

theorem lt_iff_ordinal (hv : v.isFinite = true) (hw : w.isFinite = true) :
    v < w ↔ ordinal v < ordinal w := by
  have hlt : v < w ↔ (UnpackedFloat.unpack Format.binary64 (wordOf v)).lt
      (UnpackedFloat.unpack Format.binary64 (wordOf w)) = true := decide_eq_true_iff
  rw [hlt, UnpackedFloat.lt, compare_ordinal hv hw, beq_iff_eq, Option.some.injEq,
    compare_lt_iff_lt]

theorem not_lt_zero_iff (hv : v.isFinite = true) : ¬v < 0 ↔ 0 ≤ v := by
  rw [lt_iff_ordinal hv rfl, le_iff_ordinal rfl hv, not_lt]

theorem zero_le_iff_signBit (hv : v.isFinite = true) :
    0 ≤ v ↔ (signBit v = true → (Binary.ofFloat v).significand = 0) := by
  have hzero : ordinal 0 = 0 := ordinal_eq_zero (by decide)
  rw [le_iff_ordinal rfl hv, hzero]
  constructor
  · intro h hs
    by_contra hne
    exact absurd (ordinal_neg hs hne) (not_lt.2 h)
  · intro h
    cases hs : signBit v with
    | true => exact (ordinal_eq_zero (h hs)).ge
    | false => exact (ordinal_of_not_signBit hs).symm ▸ Int.natCast_nonneg _

end Calculator
