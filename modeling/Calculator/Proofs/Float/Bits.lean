import Calculator.Number.Binary
import Calculator.Proofs.Float.Fields

/-!
# Floats as sign and magnitude

A float that is no NaN is the sign bit and the 63 bits of the magnitude: `floatOfBits` puts them
together, and the predicates and sign operations of floats read them off. Magnitudes up to
`infinityBits` are numbers, and those below are finite.
-/

namespace Calculator

open Float.Model (Format UnpackedFloat)
open Fields (Word resigned)

/-- The bits of a float without its sign. -/
def magnitudeBits (v : Float) : Nat := v.toBits.toNat % twos 63

def signBit (v : Float) : Bool := v.toBits.toNat / twos 63 == 1

def wordOf (v : Float) : Word := v.toBits.toBitVec

theorem magnitudeBits_eq (v : Float) : magnitudeBits v = (wordOf v).toNat % 2 ^ 63 := rfl

theorem isFinite_iff (v : Float) : v.isFinite = true ↔ magnitudeBits v < infinityBits :=
  Fields.isFinite_unpack (wordOf v)

theorem magnitudeBits_le_of_isFinite {v : Float} (h : v.isFinite = true) :
    magnitudeBits v ≤ infinityBits := Nat.le_of_lt ((isFinite_iff v).1 h)

theorem status_cases (v : Float) :
    (v.isFinite = true ∧ v.isInf = false ∧ v.isNaN = false) ∨
      (v.isFinite = false ∧ v.isInf = true ∧ v.isNaN = false) ∨
      (v.isFinite = false ∧ v.isInf = false ∧ v.isNaN = true) := by
  have hcases (u : UnpackedFloat) :
      (u.isFinite = true ∧ u.isInf = false ∧ u.isNaN = false) ∨
        (u.isFinite = false ∧ u.isInf = true ∧ u.isNaN = false) ∨
        (u.isFinite = false ∧ u.isInf = false ∧ u.isNaN = true) := by
    cases u with
    | notANumber => exact .inr (.inr ⟨rfl, rfl, rfl⟩)
    | infinity => exact .inr (.inl ⟨rfl, rfl, rfl⟩)
    | zero => exact .inl ⟨rfl, rfl, rfl⟩
    | finite => exact .inl ⟨rfl, rfl, rfl⟩
  exact hcases v.toModel.unpack

theorem isNaN_of_isFinite {v : Float} (h : v.isFinite = true) : v.isNaN = false := by
  rcases status_cases v with ⟨-, -, hn⟩ | ⟨hf, -⟩ | ⟨hf, -⟩
  · exact hn
  · exact absurd (h.symm.trans hf) (by decide)
  · exact absurd (h.symm.trans hf) (by decide)

theorem isInf_of_isFinite {v : Float} (h : v.isFinite = true) : v.isInf = false := by
  rcases status_cases v with ⟨-, hi, -⟩ | ⟨hf, -⟩ | ⟨hf, -⟩
  · exact hi
  · exact absurd (h.symm.trans hf) (by decide)
  · exact absurd (h.symm.trans hf) (by decide)

theorem isInf_of_not_isFinite {v : Float} (h : v.isFinite = false) (hn : v.isNaN = false) :
    v.isInf = true := by
  rcases status_cases v with ⟨hf, -⟩ | ⟨-, hi, -⟩ | ⟨-, -, hn'⟩
  · exact absurd (h.symm.trans hf) (by decide)
  · exact hi
  · exact absurd (hn.symm.trans hn') (by decide)

theorem isNumber_wordOf {v : Float} (h : magnitudeBits v ≤ infinityBits) :
    Fields.IsNumber (wordOf v) := (Fields.isNumber_iff _).2 h

theorem twos_63 : twos 63 = 2 ^ 63 := rfl

theorem toNat_signed_lt {negative : Bool} {n : Nat} (h : n ≤ infinityBits) :
    (if negative then twos 63 + n else n) < 2 ^ 64 := by
  have hinf : infinityBits < 2 ^ 63 := by decide
  rw [twos_63]
  cases negative
  · simp only [Bool.false_eq_true, if_false]
    omega
  · simp only [if_true]
    omega

theorem toBits_floatOfBits {negative : Bool} {n : Nat} (h : n ≤ infinityBits) :
    (floatOfBits negative n).toBits.toNat = if negative then twos 63 + n else n := by
  have hlt : (if negative then twos 63 + n else n) < 2 ^ 64 := toNat_signed_lt h
  generalize hm : (if negative then twos 63 + n else n) = m at hlt
  have hmod : m % 2 ^ 63 = n := by
    have hinf : infinityBits < 2 ^ 63 := by decide
    rw [twos_63] at hm
    cases negative
    · simp only [Bool.false_eq_true, if_false] at hm
      omega
    · simp only [if_true] at hm
      omega
  have hw : (BitVec.ofNat 64 m).toNat = m := by
    rw [BitVec.toNat_ofNat, Nat.mod_eq_of_lt hlt]
  have hnumber : Fields.IsNumber (BitVec.ofNat 64 m) := by
    rw [Fields.isNumber_iff, hw, hmod]
    exact h
  rw [floatOfBits, hm]
  change (UnpackedFloat.pack Format.binary64
    (UnpackedFloat.unpack Format.binary64 (BitVec.ofNat 64 m))).toNat = m
  rw [Fields.pack_unpack_of_isNumber hnumber, hw]

theorem magnitudeBits_floatOfBits {negative : Bool} {n : Nat} (h : n ≤ infinityBits) :
    magnitudeBits (floatOfBits negative n) = n := by
  rw [magnitudeBits, toBits_floatOfBits h, twos_63]
  have hinf : infinityBits < 2 ^ 63 := by decide
  cases negative
  · simp only [Bool.false_eq_true, if_false]
    omega
  · simp only [if_true]
    omega

theorem signBit_floatOfBits {negative : Bool} {n : Nat} (h : n ≤ infinityBits) :
    signBit (floatOfBits negative n) = negative := by
  rw [signBit, toBits_floatOfBits h]
  have hinf : infinityBits < twos 63 := by decide
  have hpos := twos_pos 63
  cases negative
  · simp only [Bool.false_eq_true, if_false, beq_eq_false_iff_ne, ne_eq]
    rw [Nat.div_eq_of_lt (by omega)]
    decide
  · simp only [if_true, beq_iff_eq]
    rw [Nat.add_div_left _ hpos, Nat.div_eq_of_lt (by omega)]

/-- Sign and magnitude determine a float. -/
theorem eq_of_bits {v w : Float} (hs : signBit v = signBit w)
    (hm : magnitudeBits v = magnitudeBits w) : v = w := by
  apply Float.toBits_inj.1
  apply UInt64.toNat_inj.1
  have hv := v.toBits.toNat_lt
  have hw := w.toBits.toNat_lt
  have hsign := Bool.eq_iff_iff.1 hs
  simp only [signBit, beq_iff_eq, twos_63] at hsign
  simp only [magnitudeBits, twos_63] at hm
  omega

theorem floatOfBits_bits {v : Float} (h : magnitudeBits v ≤ infinityBits) :
    floatOfBits (signBit v) (magnitudeBits v) = v :=
  eq_of_bits (signBit_floatOfBits h) (magnitudeBits_floatOfBits h)

theorem isFinite_floatOfBits {negative : Bool} {n : Nat} (h : n ≤ infinityBits) :
    (floatOfBits negative n).isFinite = true ↔ n < infinityBits := by
  rw [isFinite_iff, magnitudeBits_floatOfBits h]

theorem toBits_resigned {v : Float} (h : magnitudeBits v ≤ infinityBits)
    (s : Float.Model.UnpackedFloat.Sign) :
    (UnpackedFloat.pack Format.binary64
      (resigned s (UnpackedFloat.unpack Format.binary64 (wordOf v)))).toNat =
      s.toBitVec.toNat * 2 ^ 63 + magnitudeBits v := by
  rw [Fields.pack_resigned (isNumber_wordOf h), Fields.toNat_packComponents,
    Fields.toNat_exponent, Fields.toNat_fraction, magnitudeBits_eq]
  omega

theorem abs_eq {v : Float} (h : magnitudeBits v ≤ infinityBits) :
    v.abs = floatOfBits false (magnitudeBits v) := by
  apply Float.toBits_inj.1
  apply UInt64.toNat_inj.1
  rw [toBits_floatOfBits h]
  have habs : ∀ u : UnpackedFloat, u.abs = resigned .positive u := by
    intro u
    cases u <;> rfl
  change (UnpackedFloat.pack Format.binary64
    (UnpackedFloat.unpack Format.binary64 (wordOf v)).abs).toNat = _
  rw [habs, toBits_resigned h]
  simp [Float.Model.UnpackedFloat.Sign.toBitVec]

theorem isFinite_abs {v : Float} (h : v.isFinite = true) : v.abs.isFinite = true := by
  have hle := magnitudeBits_le_of_isFinite h
  rw [abs_eq hle, isFinite_floatOfBits hle]
  exact (isFinite_iff v).1 h

theorem signBit_abs {v : Float} (h : magnitudeBits v ≤ infinityBits) : signBit v.abs = false := by
  rw [abs_eq h, signBit_floatOfBits h]

theorem abs_of_signBit {v : Float} (h : magnitudeBits v ≤ infinityBits) (hs : signBit v = false) :
    v.abs = v := by
  rw [abs_eq h]
  apply eq_of_bits
  · rw [signBit_floatOfBits h, hs]
  · rw [magnitudeBits_floatOfBits h]

theorem lt_zero_iff {v : Float} (h : magnitudeBits v ≤ infinityBits) :
    v < 0 ↔ signBit v = true ∧ magnitudeBits v ≠ 0 := by
  have hsign : signBit v = true ↔ Fields.sign (wordOf v) = .negative := by
    rw [Fields.sign_eq_negative_iff, signBit, beq_iff_eq]
    rfl
  have hword : wordOf 0 = 0#64 := by decide
  have hzero : UnpackedFloat.unpack Format.binary64 (wordOf 0) = .zero .positive := by
    rw [hword]
    rfl
  have hlt : v < 0 ↔ (UnpackedFloat.unpack Format.binary64 (wordOf v)).lt
      (UnpackedFloat.unpack Format.binary64 (wordOf 0)) = true := decide_eq_true_iff
  have hmag : magnitudeBits v ≠ 0 ↔ ¬(Fields.exponent (wordOf v) = 0#11 ∧
      Fields.fraction (wordOf v) = 0#52) := by
    rw [Fields.exponent_eq_iff, Fields.fraction_eq_zero_iff, magnitudeBits_eq,
      show (0#11).toNat = 0 from rfl]
    have hw := (wordOf v).isLt
    omega
  have hnumber := isNumber_wordOf h
  rw [hlt, hzero, hsign, hmag, Fields.unpack_eq]
  cases Fields.sign (wordOf v) with
  | negative =>
    split
    · next he =>
      simp [hnumber he, he, UnpackedFloat.lt, UnpackedFloat.compare]
    · split
      · next h0 =>
        split
        · next hf => simp [h0, hf, UnpackedFloat.lt, UnpackedFloat.compare]
        · next hf => simp [h0, hf, UnpackedFloat.lt, UnpackedFloat.compare]
      · next h0 => simp [h0, UnpackedFloat.lt, UnpackedFloat.compare]
  | positive =>
    split
    · next he =>
      rw [if_pos (hnumber he)]
      simp [UnpackedFloat.lt, UnpackedFloat.compare]
    · split
      · split <;> simp [UnpackedFloat.lt, UnpackedFloat.compare]
      · simp [UnpackedFloat.lt, UnpackedFloat.compare]

theorem not_lt_zero {v : Float} (h : magnitudeBits v ≤ infinityBits) (hs : signBit v = false) :
    ¬v < 0 := by
  rw [lt_zero_iff h, hs]
  nofun

end Calculator
