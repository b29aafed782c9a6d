import Calculator.Proofs.Json.Numbers
import Calculator.Proofs.Number.Signed
import Calculator.Settings.Format

/-!
# Canonical numerals

A numeral is canonical if none of its digits can be left out and zero has no sign. A decimal whose
last digit stands at the ones or behind them is shown as a canonical numeral of the same value.
-/

namespace Calculator

/-- The decimal that digits with a sign and a point denote. -/
def Decimal.ofText (text : String) : Decimal :=
  let (negative, digits) := splitSign text.toList
  { ofNumeral digits with negative }

theorem splitSign_withSign {cs : List Char} (h : IsNumeral cs) (negative : Bool) :
    splitSign (withSign negative cs) = (negative, cs) := by
  obtain ⟨c, tail, rfl, hc⟩ := h.exists_cons
  cases negative with
  | true => rfl
  | false =>
    rw [withSign, if_neg Bool.false_ne_true]
    unfold splitSign
    split
    · next heq =>
      cases heq
      exact absurd hc (by decide)
    · next heq =>
      cases heq
      exact absurd hc (by decide)
    · rfl

theorem Decimal.ofText_withSign {cs : List Char} (h : IsNumeral cs) (negative : Bool) :
    ofText (String.ofList (withSign negative cs)) = { ofNumeral cs with negative } := by
  simp only [ofText, String.toList_ofList, splitSign_withSign h]

/-- A sign, and the digits before and after a point. -/
structure Numeral where
  negative : Bool
  whole : List Char
  fraction : List Char
  deriving DecidableEq, Repr

namespace Numeral

variable {n : Numeral}

def chars (n : Numeral) : List Char := withSign n.negative (pointed n.whole n.fraction)

def text (n : Numeral) : String := String.ofList n.chars

/-- No zero starts a longer number or ends a fraction, and zero has no sign. -/
structure IsCanonical (n : Numeral) : Prop where
  whole : Json.IsWhole n.whole
  fraction : AllDigits n.fraction
  last : '0' ∉ n.fraction.getLast?
  sign : n.negative = true → n.whole = ['0'] → n.fraction ≠ []

theorem IsCanonical.isNumeral (h : n.IsCanonical) : IsNumeral (pointed n.whole n.fraction) :=
  ⟨_, _, h.whole.1, h.whole.2.1, h.fraction, rfl⟩

theorem IsCanonical.ofText_text (h : n.IsCanonical) :
    Decimal.ofText n.text = .ofDigits n.negative n.whole n.fraction 0 := by
  rw [text, chars, Decimal.ofText_withSign h.isNumeral, ofNumeral_pointed h.whole.2.1]
  rfl

end Numeral

theorem dropZeros_replicate (k : Nat) : dropZeros (List.replicate k '0') = [] := by
  rw [dropZeros, List.reverse_replicate]
  simp

theorem zero_notMem_getLast?_dropZeros (digits : List Char) :
    '0' ∉ (dropZeros digits).getLast? := by
  rw [dropZeros, List.getLast?_reverse]
  intro h
  have hnot := List.head?_dropWhile_not (· == '0') digits.reverse
  rw [Option.mem_def] at h
  rw [h] at hnot
  cases hnot

theorem dropFractionZeros_cons {c : Char} (hz : c ≠ '0') (hp : c ≠ '.') (cs : List Char) :
    dropFractionZeros (c :: cs) = c :: dropFractionZeros cs := by
  have hcontains : (c :: cs).contains '.' = cs.contains '.' := by
    rw [List.contains_cons, beq_false_of_ne (Ne.symm hp), Bool.false_or]
  simp only [dropFractionZeros, hcontains]
  split
  · rw [List.reverse_cons, List.dropWhile_append]
    cases hzeros : cs.reverse.dropWhile (· == '0') with
    | nil => simp [hz, hp]
    | cons z zs =>
      rw [List.isEmpty_cons, if_neg Bool.false_ne_true, List.dropWhile_append]
      cases hpoints : (z :: zs).dropWhile (· == '.') with
      | nil => simp [hp]
      | cons y ys => simp
  · rfl

theorem dropFractionZeros_withSign (negative : Bool) (cs : List Char) :
    dropFractionZeros (withSign negative cs) = withSign negative (dropFractionZeros cs) := by
  cases negative with
  | true => exact dropFractionZeros_cons (by decide) (by decide) cs
  | false => rfl

namespace Decimal

variable {d : Decimal}

/-- The numeral under which a decimal without tens, hundreds and so on is shown. -/
def numeral (d : Decimal) : Numeral where
  negative := d.negative && d.coefficient != 0
  whole := Nat.toDigits 10 (d.coefficient / tens (-d.exponent))
  fraction := dropZeros
    ((Nat.toDigits 10 (d.coefficient % tens (-d.exponent))).leftpad (-d.exponent).toNat '0')

theorem numeral_of_exponent_zero (he : d.exponent = 0) : d.numeral =
    ⟨d.negative && d.coefficient != 0, Nat.toDigits 10 d.coefficient, []⟩ := by
  simp only [numeral, he, neg_zero, tens_of_nonpos (le_refl 0), Nat.div_one, Nat.mod_one]
  rfl

theorem pointed_numeral (he : d.exponent ≤ 0) :
    dropFractionZeros d.positional = pointed d.numeral.whole d.numeral.fraction := by
  rcases he.lt_or_eq with hlt | heq
  · rw [positional, if_neg (not_le.2 hlt)]
    exact dropFractionZeros_point (allDigits_toDigits _)
      (allDigits_leftpad (allDigits_toDigits _) _)
  · rw [positional, if_pos heq.ge, numeral_of_exponent_zero heq, heq, Int.toNat_zero,
      List.replicate_zero, List.append_nil]
    exact dropFractionZeros_digits (allDigits_toDigits _)

theorem magnitude_numeral (he : d.exponent ≤ 0) (negative : Bool) :
    (ofDigits negative d.numeral.whole d.numeral.fraction 0).magnitude = d.magnitude := by
  rcases he.lt_or_eq with hlt | heq
  · exact (magnitude_ofDigits_dropZeros negative _ _).trans (magnitude_ofDigits_split negative hlt)
  · rw [numeral_of_exponent_zero heq]
    simp [ofDigits, magnitude, heq, Nat.ofDigitChars_ten_toDigits]

theorem numeral_zero_iff (he : d.exponent ≤ 0) :
    d.numeral.whole = ['0'] ∧ d.numeral.fraction = [] ↔ d.coefficient = 0 := by
  constructor
  · rintro ⟨hw, hf⟩
    have hdigit : Nat.ofDigitChars 10 ['0'] 0 = 0 := by decide
    rw [← magnitude_eq_zero_iff, ← magnitude_numeral he false, hw, hf]
    simp [ofDigits, magnitude, hdigit]
  · intro h
    have hpad (k : Nat) : (['0'].leftpad k '0') = List.replicate (k - 1 + 1) '0' := by
      rw [List.leftpad, List.replicate_succ']
      rfl
    simp only [numeral, h, Nat.zero_div, Nat.zero_mod]
    exact ⟨rfl, (congrArg dropZeros (hpad _)).trans (dropZeros_replicate _)⟩

theorem isCanonical_numeral (he : d.exponent ≤ 0) : d.numeral.IsCanonical where
  whole := Json.isWhole_toDigits _
  fraction := (allDigits_leftpad (allDigits_toDigits _) _).dropZeros
  last := zero_notMem_getLast?_dropZeros _
  sign hn hw hf := by
    have hzero := (numeral_zero_iff he).1 ⟨hw, hf⟩
    simp [numeral, hzero] at hn

theorem length_fraction_numeral (he : d.exponent ≤ 0) :
    d.numeral.fraction.length ≤ (-d.exponent).toNat := by
  rcases he.lt_or_eq with hlt | heq
  · have hlength : (Nat.toDigits 10 (d.coefficient % tens (-d.exponent))).length ≤
        (-d.exponent).toNat := by
      rw [Nat.length_toDigits_le_iff (by decide) (by omega)]
      exact Nat.mod_lt _ (tens_pos _)
    obtain ⟨k, hk⟩ := exists_dropZeros_append
      ((Nat.toDigits 10 (d.coefficient % tens (-d.exponent))).leftpad (-d.exponent).toNat '0')
    have hsum := congrArg List.length hk
    rw [List.length_leftpad, Nat.max_eq_left hlength, List.length_append] at hsum
    exact hsum ▸ Nat.le_add_right _ _
  · rw [numeral_of_exponent_zero heq]
    exact Nat.zero_le _

theorem value_ofText_numeral (he : d.exponent ≤ 0) :
    (ofText d.numeral.text).value = d.value := by
  rw [(isCanonical_numeral he).ofText_text, value, value, magnitude_numeral he]
  change signedValue (d.negative && d.coefficient != 0) _ = _
  by_cases h : d.coefficient = 0
  · rw [magnitude_eq_zero_iff.2 h]
    cases d.negative <;> simp [signedValue]
  · rw [bne_iff_ne.2 h, Bool.and_true]

theorem text_numeral_eq_zero_iff (he : d.exponent ≤ 0) :
    d.numeral.text = "0" ↔ d.coefficient = 0 := by
  constructor
  · intro h
    have hvalue := value_ofText_numeral he
    have hzero : ofText "0" = ⟨false, 0, 0⟩ := by decide
    rw [h, hzero] at hvalue
    rw [← magnitude_eq_zero_iff, ← magnitude_congr hvalue, magnitude_eq_zero_iff]
  · intro h
    obtain ⟨hw, hf⟩ := (numeral_zero_iff he).2 h
    have hn : d.numeral.negative = false := by simp [numeral, h]
    rw [Numeral.text, Numeral.chars, hw, hf, hn]
    rfl

/-- The text of a decimal without the zeros that can be left out is its numeral. -/
theorem canonicalNumeral_eq (he : d.exponent ≤ 0) :
    canonicalNumeral (withSign d.negative d.positional) = d.numeral.chars := by
  simp only [canonicalNumeral, dropFractionZeros_withSign, pointed_numeral he, Numeral.chars]
  by_cases h : d.coefficient = 0
  · obtain ⟨hw, hf⟩ := (numeral_zero_iff he).2 h
    have hn : d.numeral.negative = false := by simp [numeral, h]
    rw [hw, hf, hn]
    cases d.negative <;> rfl
  · have hn : d.numeral.negative = d.negative := by simp [numeral, h]
    obtain ⟨c, tail, hcons, hc⟩ := (isCanonical_numeral he).isNumeral.exists_cons
    rw [hn, if_neg]
    rintro (hsign | hnil)
    · cases hneg : d.negative with
      | true =>
        rw [hneg] at hsign
        have hpointed := (List.cons.inj hsign).2
        refine h ((numeral_zero_iff he).1 ?_)
        unfold pointed at hpointed
        split at hpointed
        · next hf => exact ⟨hpointed, hf⟩
        · next hf =>
          have hlength := congrArg List.length hpointed
          have hfraction := List.length_pos_of_ne_nil hf
          simp only [List.length_append, List.length_cons, List.length_nil] at hlength
          omega
      | false =>
        rw [hneg, hcons] at hsign
        obtain rfl := (List.cons.inj hsign).1
        exact absurd hc (by decide)
    · rw [hcons] at hnil
      cases hneg : d.negative <;> rw [hneg] at hnil <;> cases hnil

end Decimal

end Calculator
