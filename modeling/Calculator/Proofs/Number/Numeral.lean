import Calculator.Expr.Printer
import Calculator.Number.Reading
import Calculator.Proofs.Float.Decimals
import Mathlib.Data.List.TakeWhile

/-!
# Numerals

A numeral is a nonempty list of digits, possibly with a point and more digits behind it. Literals
are printed as numerals, and such a numeral reads back as the number that was printed.
-/

namespace Calculator

/-- Digits, and a point before the digits of the fraction if there are any. -/
def pointed (whole fraction : List Char) : List Char :=
  if fraction = [] then whole else whole ++ '.' :: fraction

def AllDigits (cs : List Char) : Prop := ∀ c ∈ cs, c.isDigit = true

def IsNumeral (cs : List Char) : Prop :=
  ∃ whole fraction, whole ≠ [] ∧ AllDigits whole ∧ AllDigits fraction ∧
    cs = pointed whole fraction

def dropZeros (digits : List Char) : List Char :=
  (digits.reverse.dropWhile (· == '0')).reverse

theorem allDigits_append {cs ds : List Char} :
    AllDigits (cs ++ ds) ↔ AllDigits cs ∧ AllDigits ds := by
  simp only [AllDigits, List.mem_append, or_imp, forall_and]

theorem allDigits_replicate_zero (n : Nat) : AllDigits (List.replicate n '0') := by
  intro c hc
  rw [List.eq_of_mem_replicate hc]
  rfl

theorem allDigits_toDigits (n : Nat) : AllDigits (Nat.toDigits 10 n) := fun _ hc =>
  Nat.isDigit_of_mem_toDigits (by decide) (by decide) hc

theorem allDigits_leftpad {digits : List Char} (h : AllDigits digits) (n : Nat) :
    AllDigits (digits.leftpad n '0') := by
  rw [List.leftpad]
  exact allDigits_append.2 ⟨allDigits_replicate_zero _, h⟩

theorem ne_point_of_isDigit {c : Char} (h : c.isDigit = true) : c ≠ '.' := by
  rintro rfl
  exact absurd h (by decide)

theorem AllDigits.all_ne_point {cs : List Char} (h : AllDigits cs) :
    ∀ c ∈ cs, (c != '.') = true := by
  intro c hc
  simpa using ne_point_of_isDigit (h c hc)

theorem IsNumeral.exists_cons {cs : List Char} (h : IsNumeral cs) :
    ∃ c tail, cs = c :: tail ∧ c.isDigit = true := by
  obtain ⟨whole, fraction, hne, hw, -, rfl⟩ := h
  obtain ⟨c, tail, rfl⟩ := List.exists_cons_of_ne_nil hne
  refine ⟨c, if fraction = [] then tail else tail ++ '.' :: fraction, ?_,
    hw c List.mem_cons_self⟩
  unfold pointed
  split <;> rfl

theorem exists_dropZeros_append (digits : List Char) :
    ∃ k, digits = dropZeros digits ++ List.replicate k '0' := by
  refine ⟨(digits.reverse.takeWhile (· == '0')).length, ?_⟩
  have hzeros : digits.reverse.takeWhile (· == '0') =
      List.replicate (digits.reverse.takeWhile (· == '0')).length '0' := by
    refine List.eq_replicate_iff.2 ⟨rfl, fun c hc => ?_⟩
    exact beq_iff_eq.1 (List.all_eq_true.1 (List.all_takeWhile ..) c hc)
  have hsplit := congrArg List.reverse
    (List.takeWhile_append_dropWhile (p := (· == '0')) (l := digits.reverse))
  rw [List.reverse_append, List.reverse_reverse, hzeros, List.reverse_replicate] at hsplit
  exact hsplit.symm

theorem AllDigits.dropZeros {digits : List Char} (h : AllDigits digits) :
    AllDigits (dropZeros digits) := by
  obtain ⟨k, hk⟩ := exists_dropZeros_append digits
  rw [hk] at h
  exact (allDigits_append.1 h).1

/-- The zeros at the end of a fraction go, and the point with the last of them. -/
theorem dropFractionZeros_point {whole fraction : List Char} (hw : AllDigits whole)
    (hf : AllDigits fraction) :
    dropFractionZeros (whole ++ '.' :: fraction) = pointed whole (dropZeros fraction) := by
  have hpoint : (whole ++ '.' :: fraction).contains '.' = true := by simp
  have hwhole : whole.reverse.dropWhile (· == '.') = whole.reverse := by
    cases hr : whole.reverse with
    | nil => rfl
    | cons c cs =>
      have hc := hw c (List.mem_reverse.1 (hr ▸ List.mem_cons_self))
      simp [ne_point_of_isDigit hc]
  rw [dropFractionZeros, if_pos hpoint, List.reverse_append, List.reverse_cons, List.append_assoc,
    List.singleton_append, List.dropWhile_append]
  cases hz : fraction.reverse.dropWhile (· == '0') with
  | nil =>
    have hdrop : Calculator.dropZeros fraction = [] := by rw [Calculator.dropZeros, hz]; rfl
    simp [hdrop, pointed, hwhole]
  | cons c cs =>
    have hc : c.isDigit = true := by
      apply hf
      rw [← List.mem_reverse]
      exact (List.dropWhile_suffix _).subset (hz ▸ List.mem_cons_self)
    have hdrop : Calculator.dropZeros fraction = (c :: cs).reverse := by
      rw [Calculator.dropZeros, hz]
    simp [hdrop, pointed, ne_point_of_isDigit hc]

theorem dropFractionZeros_digits {cs : List Char} (h : AllDigits cs) :
    dropFractionZeros cs = cs := by
  rw [dropFractionZeros, if_neg]
  intro hc
  exact absurd rfl (ne_point_of_isDigit (h '.' (by simpa using hc)))

theorem splitPoint_digits {cs : List Char} (h : AllDigits cs) : splitPoint cs = (cs, []) := by
  rw [splitPoint, List.takeWhile_eq_self_iff.2 h.all_ne_point,
    List.dropWhile_eq_nil_iff.2 h.all_ne_point]
  rfl

theorem splitPoint_point {whole : List Char} (fraction : List Char) (h : AllDigits whole) :
    splitPoint (whole ++ '.' :: fraction) = (whole, fraction) := by
  rw [splitPoint, List.takeWhile_append_of_pos h.all_ne_point,
    List.dropWhile_append_of_pos h.all_ne_point]
  simp

theorem ofNumeral_digits {cs : List Char} (h : AllDigits cs) :
    Decimal.ofNumeral cs = .ofDigits false cs [] 0 := by
  simp only [Decimal.ofNumeral, splitPoint_digits h]

theorem ofNumeral_pointed {whole fraction : List Char} (hw : AllDigits whole) :
    Decimal.ofNumeral (pointed whole fraction) = .ofDigits false whole fraction 0 := by
  by_cases h : fraction = []
  · subst h
    exact ofNumeral_digits hw
  · simp only [pointed, if_neg h, Decimal.ofNumeral, splitPoint_point _ hw]

theorem magnitude_ofDigits_zeros (negative : Bool) (whole fraction : List Char) (k : Nat) :
    (Decimal.ofDigits negative whole (fraction ++ List.replicate k '0') 0).magnitude =
      (Decimal.ofDigits negative whole fraction 0).magnitude := by
  have hten : (10 : ℚ) ≠ 0 := by norm_num
  have hexp : (0 - (fraction.length : Int)) = 0 - ((fraction.length + k : Nat) : Int) + k := by
    push_cast
    ring
  simp only [Decimal.magnitude, Decimal.ofDigits, List.length_append, List.length_replicate]
  rw [← List.append_assoc, Nat.ofDigitChars_append, Nat.ofDigitChars_replicate_zero, hexp,
    zpow_add₀ hten, zpow_natCast]
  push_cast
  ring

theorem magnitude_ofDigits_dropZeros (negative : Bool) (whole fraction : List Char) :
    (Decimal.ofDigits negative whole (dropZeros fraction) 0).magnitude =
      (Decimal.ofDigits negative whole fraction 0).magnitude := by
  obtain ⟨k, hk⟩ := exists_dropZeros_append fraction
  conv_rhs => rw [hk, magnitude_ofDigits_zeros]

theorem ofDigitChars_leftpad (digits : List Char) (n init : Nat)
    (h : digits.length ≤ n) :
    Nat.ofDigitChars 10 (digits.leftpad n '0') init =
      10 ^ n * init + Nat.ofDigitChars 10 digits 0 := by
  rw [List.leftpad, Nat.ofDigitChars_append, Nat.ofDigitChars_replicate_zero,
    Nat.ofDigitChars_eq_ofDigitChars_zero, ← Nat.mul_assoc, ← Nat.pow_add]
  congr 3
  omega

theorem ofDigitChars_lt {cs : List Char} (h : AllDigits cs) (init : Nat) :
    Nat.ofDigitChars 10 cs init < (init + 1) * 10 ^ cs.length := by
  induction cs generalizing init with
  | nil => simp
  | cons c cs ih =>
    have hdigit : c.toNat - '0'.toNat ≤ 9 := by
      have hc := h c (by simp)
      have hnine := Char.isDigit_iff_toNat.1 hc
      have hzero : '0'.toNat = 48 := rfl
      have hlast : '9'.toNat = 57 := rfl
      omega
    have hrest := ih (fun d hd => h d (by simp [hd])) (10 * init + (c.toNat - '0'.toNat))
    rw [Nat.ofDigitChars_cons, List.length_cons, Nat.pow_succ]
    refine hrest.trans_le ?_
    rw [Nat.mul_comm (10 ^ cs.length), ← Nat.mul_assoc]
    exact Nat.mul_le_mul_right _ (by omega)

theorem natAbs_integerOfDigits_lt {digits : List Char} (h : AllDigits digits) (negative : Bool) :
    (integerOfDigits negative digits).natAbs < 10 ^ digits.length := by
  have hlt := ofDigitChars_lt h 0
  rw [Nat.zero_add, Nat.one_mul] at hlt
  rw [integerOfDigits]
  cases negative <;> simpa using hlt

theorem Decimal.ofDigits_split (negative : Bool) {d : Decimal} (he : d.exponent < 0) :
    ofDigits negative (Nat.toDigits 10 (d.coefficient / tens (-d.exponent)))
      ((Nat.toDigits 10 (d.coefficient % tens (-d.exponent))).leftpad (-d.exponent).toNat '0')
      0 = { d with negative } := by
  have hpow : tens (-d.exponent) = 10 ^ (-d.exponent).toNat := rfl
  have hlen : (Nat.toDigits 10 (d.coefficient % tens (-d.exponent))).length ≤
      (-d.exponent).toNat := by
    rw [Nat.length_toDigits_le_iff (by decide) (by omega), ← hpow]
    exact Nat.mod_lt _ (tens_pos _)
  have hexp : 0 - (((-d.exponent).toNat : Nat) : Int) = d.exponent := by omega
  rw [ofDigits, List.length_leftpad, Nat.max_eq_left hlen, Nat.ofDigitChars_append,
    Nat.ofDigitChars_ten_toDigits, ofDigitChars_leftpad _ _ _ hlen,
    Nat.ofDigitChars_ten_toDigits, ← hpow, Nat.div_add_mod, hexp]

theorem Decimal.magnitude_ofDigits_split (negative : Bool) {d : Decimal} (he : d.exponent < 0) :
    (ofDigits negative (Nat.toDigits 10 (d.coefficient / tens (-d.exponent)))
      ((Nat.toDigits 10 (d.coefficient % tens (-d.exponent))).leftpad (-d.exponent).toNat '0')
      0).magnitude = d.magnitude := by
  rw [ofDigits_split negative he]
  rfl

/-- Positional notation without zeros at the end of the fraction is a numeral of the same value. -/
theorem Decimal.dropFractionZeros_positional (d : Decimal) :
    IsNumeral (dropFractionZeros d.positional) ∧
      (ofNumeral (dropFractionZeros d.positional)).magnitude = d.magnitude ∧
      (ofNumeral (dropFractionZeros d.positional)).negative = false := by
  by_cases he : 0 ≤ d.exponent
  · have hdigits : AllDigits
        (Nat.toDigits 10 d.coefficient ++ List.replicate d.exponent.toNat '0') :=
      allDigits_append.2 ⟨allDigits_toDigits _, allDigits_replicate_zero _⟩
    have hvalue := ofNumeral_digits hdigits
    rw [positional, if_pos he, dropFractionZeros_digits hdigits, hvalue]
    refine ⟨⟨_, [], by simp, hdigits, by simp [AllDigits], rfl⟩, ?_, rfl⟩
    simp only [magnitude, ofDigits, List.append_nil, List.length_nil]
    rw [Nat.ofDigitChars_append, Nat.ofDigitChars_replicate_zero, Nat.ofDigitChars_ten_toDigits]
    conv_rhs => rw [show d.exponent = (d.exponent.toNat : Int) by omega, zpow_natCast]
    push_cast
    ring
  · have hw := allDigits_toDigits (d.coefficient / tens (-d.exponent))
    have hf := allDigits_leftpad (allDigits_toDigits (d.coefficient % tens (-d.exponent)))
      (-d.exponent).toNat
    rw [positional, if_neg he, dropFractionZeros_point hw hf, ofNumeral_pointed hw,
      magnitude_ofDigits_dropZeros]
    exact ⟨⟨_, _, Nat.toDigits_ne_nil, hw, hf.dropZeros, rfl⟩,
      magnitude_ofDigits_split false (Int.not_le.1 he), rfl⟩

theorem Binary.natAbs_truncate (b : Binary) :
    b.truncate.natAbs = b.numerator / b.denominator := by
  rw [truncate, signed]
  generalize b.numerator / b.denominator = q
  cases b.negative <;> simp

theorem numeralValue_truncate {v : Float} (hv : v.isFinite = true) (hs : signBit v = false)
    (hw : (Binary.ofFloat v).isWhole = true) :
    numeralValue (String.ofList (Nat.toDigits 10 (Binary.ofFloat v).truncate.natAbs)) = v := by
  have hneg : (Binary.ofFloat v).negative = false := by rw [ofFloat_eq, hs]
  have hden := (Binary.ofFloat v).denominator_pos
  have hdigits := allDigits_toDigits (Binary.ofFloat v).truncate.natAbs
  have hvalue := ofNumeral_digits hdigits
  rw [numeralValue, String.toList_ofList, hvalue, Decimal.toFloat_eq]
  refine Eq.trans ?_ (floatNearest_ofFloat hv)
  rw [hneg]
  apply floatNearest_congr (Decimal.denominator_pos _) hden
  rw [Decimal.fraction_eq]
  simp only [Decimal.ofDigits, List.append_nil, List.length_nil, Nat.ofDigitChars_ten_toDigits]
  have hexact : (Binary.ofFloat v).numerator =
      (Binary.ofFloat v).numerator / (Binary.ofFloat v).denominator *
        (Binary.ofFloat v).denominator :=
    (Nat.div_mul_cancel (Nat.dvd_of_mod_eq_zero (beq_iff_eq.1 hw))).symm
  have hne : ((Binary.ofFloat v).denominator : ℚ) ≠ 0 := by exact_mod_cast hden.ne'
  conv_rhs => rw [hexact]
  rw [Binary.natAbs_truncate, Nat.cast_mul, mul_div_cancel_right₀ _ hne]
  simp

/-- What is printed for a finite number without a sign is a numeral of the same value. -/
theorem literalText_eq {v : Float} (hv : v.isFinite = true) (hs : signBit v = false) :
    ∃ cs, IsNumeral cs ∧ literalText v = .ok (String.ofList cs) ∧
      numeralValue (String.ofList cs) = v := by
  have hneg : (Binary.ofFloat v).negative = false := by rw [ofFloat_eq, hs]
  have hsign : ¬(Binary.ofFloat v).truncate < 0 := by
    rw [Binary.truncate, Binary.signed, hneg]
    exact not_lt.2 (Int.natCast_nonneg _)
  simp only [literalText, isNaN_of_isFinite hv, isInf_of_isFinite hv, Bool.false_eq_true, if_false]
  split
  · next h =>
    refine ⟨_, ⟨_, [], Nat.toDigits_ne_nil, allDigits_toDigits _, by simp [AllDigits], rfl⟩, ?_,
      numeralValue_truncate hv hs h.1⟩
    simp only [integerText, hsign, decide_false, withSign, Bool.false_eq_true, if_false]
    rfl
  · obtain ⟨hnumeral, hmag, hpos⟩ := (Decimal.ofFloat v).dropFractionZeros_positional
    have hd : (Decimal.ofFloat v).negative = false := by rw [negative_ofFloat hv, hs]
    refine ⟨_, hnumeral, by rw [hd, withSign, if_neg Bool.false_ne_true], ?_⟩
    rw [numeralValue, String.toList_ofList, Decimal.toFloat_congr (hpos.trans hd.symm) hmag,
      toFloat_ofFloat hv]

theorem literalText_of_not_isFinite {v : Float} (hv : v.isFinite = false) :
    literalText v = .error (if v.isNaN then .nanToInteger else .infinityToInteger) := by
  rw [literalText]
  cases hn : v.isNaN
  · rw [isInf_of_not_isFinite hv hn]
    rfl
  · rfl

end Calculator
