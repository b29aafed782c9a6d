import Mathlib

/-!
# The fields of a float

The logical model of `Float` packs a sign, eleven bits of exponent and 52 bits of fraction into a
word. Unpacking a word that is no NaN and packing it again with a sign gives the word with that
sign; so the sign operations of the model are operations on the words.
-/

namespace Calculator.Fields

open Float.Model (Format UnpackedFloat)
open Float.Model.UnpackedFloat

/-- The words of the format. -/
abbrev Word := BitVec 64

def fraction (w : Word) : BitVec 52 := @unpackMantissa Format.binary64 w

def exponent (w : Word) : BitVec 11 := @unpackExponent Format.binary64 w

def sign (w : Word) : Sign := Sign.ofBitVec (@unpackSign Format.binary64 w)

def IsNumber (w : Word) : Prop := exponent w = -1#11 → fraction w = 0#52

def resigned (s : Sign) : UnpackedFloat → UnpackedFloat
  | .notANumber => .notANumber
  | .infinity _ => .infinity s
  | .zero _ => .zero s
  | .finite _ m e hm => .finite s m e hm

theorem toNat_fraction (w : Word) : (fraction w).toNat = w.toNat % 2 ^ 52 := by
  simp [fraction, unpackMantissa]

theorem toNat_exponent (w : Word) : (exponent w).toNat = w.toNat / 2 ^ 52 % 2 ^ 11 := by
  simp [exponent, unpackExponent, Nat.shiftRight_eq_div_pow]

theorem toNat_append_eq {m n : Nat} (a : BitVec m) (b : BitVec n) :
    (a ++ b).toNat = a.toNat * 2 ^ n + b.toNat := by
  rw [BitVec.toNat_append, ← Nat.shiftLeft_add_eq_or_of_lt b.isLt, Nat.shiftLeft_eq]

theorem toNat_packComponents (s : Sign) (e : BitVec 11) (m : BitVec 52) :
    (packComponents Format.binary64 s e m).toNat =
      s.toBitVec.toNat * 2 ^ 63 + e.toNat * 2 ^ 52 + m.toNat := by
  rw [packComponents, toNat_append_eq, toNat_append_eq]
  omega

theorem exponentBias_eq : Format.binary64.exponentBias = 1023 := by decide

theorem unpack_eq (w : Word) : UnpackedFloat.unpack Format.binary64 w =
    if exponent w = -1#11 then
      if fraction w = 0#52 then .infinity (sign w) else .notANumber
    else if exponent w = 0#11 then
      if h : fraction w = 0#52 then .zero (sign w)
      else .finite (sign w) (fraction w).toNat (-1074) (by
        simpa [BitVec.toNat_pos, BitVec.pos_iff_ne_zero] using h)
    else .finite (sign w) (2 ^ 52 + (fraction w).toNat) ((exponent w).toNat - 1075) (by omega) := by
  have hnormal : (1#1 ++ fraction w).toNat = 2 ^ 52 + (fraction w).toNat := by
    rw [toNat_append_eq]
    simp
  unfold UnpackedFloat.unpack
  change (if exponent w = -1#11 then
      if fraction w = 0#52 then UnpackedFloat.infinity (sign w) else UnpackedFloat.notANumber
    else if exponent w = 0#11 then
      if h : fraction w = 0#52 then UnpackedFloat.zero (sign w)
      else UnpackedFloat.finite (sign w) (fraction w).toNat _ _
    else UnpackedFloat.finite (sign w) (1#1 ++ fraction w).toNat _ _) = _
  split
  · rfl
  · split
    · next h0 =>
      split
      · rfl
      · congr 1
        change ((exponent w).toNat : Int) - (Format.binary64.exponentBias + 52 : Nat) + 1 = -1074
        rw [h0, exponentBias_eq]
        rfl
    · congr 1

theorem log2_normal {n : Nat} (h : n < 2 ^ 52) : (2 ^ 52 + n).log2 = 52 := by
  rw [Nat.log2_eq_iff (by omega)]
  omega

theorem pack_resigned {w : Word} (hw : IsNumber w) (s : Sign) :
    UnpackedFloat.pack Format.binary64 (resigned s (UnpackedFloat.unpack Format.binary64 w)) =
      packComponents Format.binary64 s (exponent w) (fraction w) := by
  rw [unpack_eq]
  split
  · next he =>
    rw [if_pos (hw he), he, hw he]
    rfl
  · next he =>
    split
    · next h0 =>
      split
      · next hf =>
        rw [h0, hf]
        rfl
      · next hf =>
        have hne : (fraction w).toNat ≠ 0 := fun h => hf (BitVec.eq_of_toNat_eq (by simpa using h))
        have hlog := (Nat.log2_lt hne).2 (fraction w).isLt
        simp only [resigned, UnpackedFloat.pack]
        rw [if_neg (by rw [exponentBias_eq]; decide), if_neg (by
          simp only [Format.mantissaBits]
          omega), h0]
        simp
    · next h0 =>
      have hlog := log2_normal (fraction w).isLt
      have hlt := (exponent w).isLt
      have hmax : (exponent w).toNat ≠ 2047 := fun h =>
        he (BitVec.eq_of_toNat_eq (by simpa using h))
      have hbiased : (((exponent w).toNat : Int) - 1075 + (Format.binary64.exponentBias : Nat) +
          (Format.binary64.mantissaBitsWithoutImplicit : Nat)).toNat = (exponent w).toNat := by
        rw [exponentBias_eq]
        change (((exponent w).toNat : Int) - 1075 + 1023 + 52).toNat = _
        omega
      simp only [resigned, UnpackedFloat.pack, hbiased]
      rw [if_neg (by omega), if_pos (by
        rw [hlog]
        decide)]
      congr 1
      · simp
      · apply BitVec.eq_of_toNat_eq
        simp only [BitVec.toNat_ofNat]
        have := (fraction w).isLt
        omega

theorem toNat_sign (w : Word) : (sign w).toBitVec.toNat = w.toNat / 2 ^ 63 := by
  rw [sign, Sign.toBitVec_ofBitVec]
  have h := w.isLt
  simp [unpackSign, Nat.shiftRight_eq_div_pow]
  omega

theorem sign_eq_negative_iff (w : Word) : sign w = .negative ↔ w.toNat / 2 ^ 63 = 1 := by
  rw [← toNat_sign]
  cases sign w <;> simp [Sign.toBitVec]

/-- A number survives unpacking and packing. -/
theorem pack_unpack_of_isNumber {w : Word} (hw : IsNumber w) :
    UnpackedFloat.pack Format.binary64 (UnpackedFloat.unpack Format.binary64 w) = w := by
  have hnumber : @isNaNBits Format.binary64 w = false :=
    decide_eq_false fun h => h.2 (hw h.1)
  have hpack := @pack_unpack Format.binary64 w (by decide)
  rwa [hnumber, if_neg Bool.false_ne_true] at hpack

theorem exponent_eq_iff (w : Word) (e : BitVec 11) :
    exponent w = e ↔ w.toNat / 2 ^ 52 % 2 ^ 11 = e.toNat := by
  rw [← toNat_exponent, BitVec.toNat_inj]

theorem fraction_eq_zero_iff (w : Word) : fraction w = 0#52 ↔ w.toNat % 2 ^ 52 = 0 := by
  rw [← toNat_fraction, ← BitVec.toNat_inj]
  rfl

theorem isNumber_iff (w : Word) : IsNumber w ↔ w.toNat % 2 ^ 63 ≤ 2047 * 2 ^ 52 := by
  rw [IsNumber, exponent_eq_iff, fraction_eq_zero_iff, show (-1#11).toNat = 2047 from rfl]
  have h := w.isLt
  omega

/-- Whether a word is finite is told by its exponent alone. -/
theorem isFinite_unpack (w : Word) : (UnpackedFloat.unpack Format.binary64 w).isFinite = true ↔
    w.toNat % 2 ^ 63 < 2047 * 2 ^ 52 := by
  have hlt : w.toNat % 2 ^ 63 < 2047 * 2 ^ 52 ↔ exponent w ≠ -1#11 := by
    rw [Ne, exponent_eq_iff, show (-1#11).toNat = 2047 from rfl]
    have h := w.isLt
    omega
  rw [hlt, unpack_eq]
  split
  · next h => split <;> simp only [UnpackedFloat.isFinite, h] <;> decide
  · next h =>
    split
    · split <;> simp only [UnpackedFloat.isFinite, Ne, h, not_false_eq_true]
    · simp only [UnpackedFloat.isFinite, Ne, h, not_false_eq_true]

end Calculator.Fields
