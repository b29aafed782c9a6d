import Calculator.Proofs.Lexing.Scan
import Calculator.Proofs.Settings.Display

/-!
# Literals

A float that is not below zero is printed as a single number token, and this token denotes the very
decimal under which the float is written. Moving the point over a power of ten only adds zeros in
front of the point, and only zeros behind the point are dropped.
-/

namespace Calculator

/-- The decimal that a written number denotes, place for place. -/
def Decimal.ofWritten? (text : String) : Option Decimal :=
  let (negative, cs) := splitSign text.toList
  readDecimal? negative cs

namespace Json

variable {negative : Bool} {d : Decimal} {behind cs : List Char} {power : Option Int}

theorem SpellsPower.readExponent?_eq (h : SpellsPower power behind) :
    readExponent? behind = some (power.getD 0) := by
  cases h with
  | absent => rfl
  | @digits e negative sign digits he hs hne hd =>
    have hsplit := hs.splitSign_eq hne hd []
    rw [List.append_nil, List.append_nil] at hsplit
    have hall : digits.all Char.isDigit = true := List.all_eq_true.2 hd
    simp only [readExponent?, hsplit]
    rw [if_pos ⟨he, hne, hall⟩]
    rfl

theorem SpellsDecimal.readDecimal?_eq (h : SpellsDecimal negative d cs) :
    readDecimal? negative cs = some d := by
  obtain @⟨whole, fraction, point, behind, power, hw, hf, hp, -⟩ := h
  have hbehind : ∀ c ∈ behind.head?, ¬c.isDigit ∧ c ≠ '.' := by
    rw [← List.append_nil behind]
    exact hp.head_append nofun
  have hwhole := takeWhile_digits hw.2.1 (hf.head_append fun c hc => (hbehind c hc).1)
  simp only [readDecimal?, hwhole, hw.1, false_and, if_false]
  cases hf with
  | absent =>
    rw [List.nil_append]
    split
    · exact absurd rfl (hbehind '.' rfl).2
    · rw [hp.readExponent?_eq]
      rfl
  | digits hne hd =>
    have hfraction := takeWhile_digits hd fun c hc => (hbehind c hc).1
    simp only [List.cons_append, hfraction, hp.readExponent?_eq]
    rfl

theorem SpellsDecimal.splitSign_withSign (h : SpellsDecimal negative d cs) :
    splitSign (withSign negative cs) = (negative, cs) := by
  obtain ⟨hw, -, -, -⟩ := h
  cases negative with
  | true => rfl
  | false => exact splitSign_digits hw.1 hw.2.1 _

end Json

theorem ofWritten?_floatText {v : Float} (hv : v.isFinite = true) :
    Decimal.ofWritten? (floatText v) = some (Decimal.ofFloat v) := by
  obtain ⟨cs, hspelled, htext⟩ := Json.spellsDecimal_float hv
  rw [Decimal.ofWritten?, htext, hspelled.splitSign_withSign]
  exact hspelled.readDecimal?_eq

theorem toDigits_mul_pow {n : Nat} (hn : 0 < n) (k : Nat) :
    Nat.toDigits 10 (n * 10 ^ k) = Nat.toDigits 10 n ++ List.replicate k '0' := by
  induction k with
  | zero => simp
  | succ k ih =>
    have hpos : 0 < n * 10 ^ k := by positivity
    have hstep := Nat.toDigits_append_toDigits (b := 10) (d := 0) (by decide) hpos (by decide)
    rw [Nat.pow_succ, ← Nat.mul_assoc, Nat.mul_comm _ 10, ← Nat.add_zero (10 * _), ← hstep, ih,
      List.append_assoc, List.replicate_succ']
    rfl

namespace Decimal

variable {d : Decimal}

/-- The same number with its last digit at the ones or behind them. -/
def toOnes (d : Decimal) : Decimal :=
  if 0 < d.exponent then { d with coefficient := d.coefficient * tens d.exponent, exponent := 0 }
  else d

theorem exponent_toOnes_nonpos (d : Decimal) : d.toOnes.exponent ≤ 0 := by
  unfold toOnes
  split
  · exact le_refl _
  · next h => exact not_lt.1 h

theorem negative_toOnes (d : Decimal) : d.toOnes.negative = d.negative := by
  unfold toOnes
  split <;> rfl

theorem magnitude_toOnes (d : Decimal) : d.toOnes.magnitude = d.magnitude := by
  unfold toOnes
  split
  · next h =>
    have hunits := tens_div_tens d.exponent
    rw [tens_of_nonpos (neg_nonpos.2 h.le), Nat.cast_one, div_one] at hunits
    rw [magnitude, magnitude, ← hunits, zpow_zero, mul_one, Nat.cast_mul]
  · rfl

theorem positional_toOnes (hd : d.coefficient ≠ 0) : d.toOnes.positional = d.positional := by
  unfold toOnes
  split
  · next h =>
    rw [positional, positional, if_pos (le_refl 0), if_pos h.le]
    simp only [Int.toNat_zero, List.replicate_zero, List.append_nil]
    exact toDigits_mul_pow (Nat.pos_of_ne_zero hd) _
  · rfl

theorem negative_numeral (hd : d.coefficient ≠ 0) : d.numeral.negative = d.negative := by
  rw [numeral, bne_iff_ne.2 hd, Bool.and_true]

end Decimal

/-- A literal is the numeral of a decimal with the value of the written one. -/
theorem literalText_eq_numeral {v : Float} (hv : v.isFinite = true) : ∃ d : Decimal,
    d.exponent ≤ 0 ∧ d.negative = (Decimal.ofFloat v).negative ∧
      d.magnitude = (Decimal.ofFloat v).magnitude ∧ literalText v = .ok d.numeral.text := by
  simp only [literalText, isNaN_of_isFinite hv, isInf_of_isFinite hv, Bool.false_eq_true, if_false]
  split
  · next h =>
    have hquotient := Binary.cast_quotient h.1
    have hlt : (Binary.ofFloat v).numerator / (Binary.ofFloat v).denominator < 10 ^ 16 := by
      rw [← Binary.natAbs_truncate]
      exact h.2
    refine ⟨_, le_refl _, ?_, ?_, by rw [ArithmeticSettings.integerText_truncate]⟩
    · rw [Binary.negative_ofFloat, negative_ofFloat hv]
    · rw [magnitude_ofFloat_of_whole hv hquotient.symm hlt, Decimal.magnitude, zpow_zero, mul_one]
  · next h =>
    have hd : (Decimal.ofFloat v).coefficient ≠ 0 := by
      intro hzero
      have hs := significand_of_toFloat (toFloat_ofFloat hv) hzero
      refine h ⟨Binary.isWhole_of_significand hs, ?_⟩
      rw [Binary.natAbs_truncate, Binary.numerator, hs, Nat.zero_mul, Nat.zero_div]
      exact tens_pos _
    have hones : (Decimal.ofFloat v).toOnes.coefficient ≠ 0 := by
      rwa [Ne, ← Decimal.magnitude_eq_zero_iff, Decimal.magnitude_toOnes,
        Decimal.magnitude_eq_zero_iff]
    have hnonpos := (Decimal.ofFloat v).exponent_toOnes_nonpos
    refine ⟨_, hnonpos, Decimal.negative_toOnes _, Decimal.magnitude_toOnes _, ?_⟩
    rw [dropFractionZeros_withSign, ← Decimal.positional_toOnes hd,
      Decimal.pointed_numeral hnonpos, Numeral.text, Numeral.chars,
      Decimal.negative_numeral hones, Decimal.negative_toOnes]

/-- Digits and at most one point, which stands between digits; the last digit behind it is not
zero. -/
structure IsPlain (cs : List Char) : Prop where
  chars : ∀ c ∈ cs, c.isDigit = true ∨ c = '.'
  point : cs.count '.' ≤ 1
  head : '.' ∉ cs.head?
  last : '.' ∉ cs.getLast?
  zeros : '.' ∈ cs → '0' ∉ cs.getLast?

/-- The text is plain, it is a single number token, and it denotes the decimal. -/
structure IsLiteralOf (text : String) (d : Decimal) : Prop where
  plain : IsPlain text.toList
  token : tokenize text = ⟨[⟨.number, text, .atCursor .start text.length⟩],
    .ok (.finish (Cursor.start.pastAll text.toList))⟩
  value : (Decimal.ofNumeral text.toList).value = d.value

theorem AllDigits.point_notMem {cs : List Char} (h : AllDigits cs) : '.' ∉ cs := fun hmem =>
  ne_point_of_isDigit (h '.' hmem) rfl

theorem AllDigits.isPlain {cs : List Char} (h : AllDigits cs) : IsPlain cs where
  chars c hc := .inl (h c hc)
  point := by
    rw [List.count_eq_zero_of_not_mem h.point_notMem]
    exact Nat.zero_le 1
  head hp := h.point_notMem (List.mem_of_mem_head? hp)
  last hp := h.point_notMem (List.mem_of_getLast? hp)
  zeros hp := absurd hp h.point_notMem

theorem isPlain_point {whole fraction : List Char} (hne : whole ≠ []) (hw : AllDigits whole)
    (hne' : fraction ≠ []) (hf : AllDigits fraction) (hzero : '0' ∉ fraction.getLast?) :
    IsPlain (whole ++ '.' :: fraction) := by
  have hlast : (whole ++ '.' :: fraction).getLast? = fraction.getLast? := by
    obtain ⟨c, cs, rfl⟩ := List.exists_cons_of_ne_nil hne'
    rw [List.getLast?_append_of_ne_nil _ (List.cons_ne_nil _ _), List.getLast?_cons_cons]
  refine ⟨?_, ?_, ?_, ?_, fun _ => hlast ▸ hzero⟩
  · intro c hc
    rw [List.mem_append, List.mem_cons] at hc
    rcases hc with hc | rfl | hc
    · exact .inl (hw c hc)
    · exact .inr rfl
    · exact .inl (hf c hc)
  · rw [List.count_append, List.count_cons_self, List.count_eq_zero_of_not_mem hw.point_notMem,
      List.count_eq_zero_of_not_mem hf.point_notMem]
  · rw [List.head?_append_of_ne_nil _ hne]
    exact fun hp => hw.point_notMem (List.mem_of_mem_head? hp)
  · rw [hlast]
    exact fun hp => hf.point_notMem (List.mem_of_getLast? hp)

namespace Numeral

variable {n : Numeral} {d : Decimal}

theorem IsCanonical.isPlain (h : n.IsCanonical) : IsPlain (pointed n.whole n.fraction) := by
  unfold pointed
  split
  · exact h.whole.2.1.isPlain
  · next hf => exact isPlain_point h.whole.1 h.whole.2.1 hf h.fraction h.last

/-- A canonical numeral without a sign is a literal of its value. -/
theorem IsCanonical.isLiteralOf (h : n.IsCanonical) (hn : n.negative = false)
    (hd : (Decimal.ofText n.text).value = d.value) : IsLiteralOf n.text d := by
  have htext : n.text = String.ofList (pointed n.whole n.fraction) := by
    rw [text, chars, hn]
    rfl
  have hchars : n.text.toList = pointed n.whole n.fraction := by rw [htext, String.toList_ofList]
  refine ⟨hchars ▸ h.isPlain, ?_, ?_⟩
  · have htoken := Lexer.tokenize_numeral h.isNumeral
    rw [← htext, ← hchars, String.length_toList] at htoken
    exact htoken
  · rw [hchars, ofNumeral_pointed h.whole.2.1, ← hd, h.ofText_text, hn]

end Numeral

/-- The literal of a float that is not below zero is a number token of the decimal under which the
float is written. -/
theorem literalText_isLiteralOf {v : Float} (hv : v.isFinite = true) (hle : 0 ≤ v) :
    ∃ d text, Decimal.ofWritten? (floatText v) = some d ∧ literalText v = .ok text ∧
      IsLiteralOf text d := by
  obtain ⟨d, hd, hnegative, hmagnitude, htext⟩ := literalText_eq_numeral hv
  refine ⟨_, _, ofWritten?_floatText hv, htext, ?_⟩
  refine (Decimal.isCanonical_numeral hd).isLiteralOf ?_ ?_
  · rw [Decimal.numeral, hnegative, negative_ofFloat hv]
    cases hs : signBit v with
    | false => rfl
    | true =>
      have hzero := Decimal.magnitude_ofFloat_of_zero ((zero_le_iff_signBit hv).1 hle hs)
      rw [← hmagnitude, Decimal.magnitude_eq_zero_iff] at hzero
      rw [hzero]
      rfl
  · rw [Decimal.value_ofText_numeral hd]
    exact Decimal.value_congr hnegative hmagnitude

/-- The zeros of a large power of ten are kept. -/
theorem literalText_isLiteralOf_power : floatText 1e22 = "1e+22" ∧
    IsLiteralOf "10000000000000000000000" ⟨false, 1, 22⟩ := by
  have htext : literalText 1e22 = .ok "10000000000000000000000" :=
    toOption_eq_some_iff.1 (by decide +kernel)
  have hwritten : Decimal.ofWritten? (floatText 1e22) = some ⟨false, 1, 22⟩ := by decide +kernel
  obtain ⟨d, text, hd, ht, hliteral⟩ :=
    literalText_isLiteralOf (v := 1e22) (by decide +kernel) (by decide +kernel)
  obtain rfl := Option.some.inj (hd.symm.trans hwritten)
  obtain rfl := Except.ok.inj (ht.symm.trans htext)
  exact ⟨by decide +kernel, hliteral⟩

end Calculator
