import Calculator.Json.Reader
import Calculator.Json.Writer
import Calculator.Proofs.Number.Numeral
import Calculator.Proofs.Outcome
import Mathlib.Tactic.SplitIfs

/-!
# Numbers in JSON

`SpellsNumber` says which characters spell a number without its sign, and whether it is a whole
number or a float. Reading a number takes as many characters as spell one; where nothing behind them
could belong to it, it takes all of them. Whole numbers and floats are written as they are spelled.
-/

namespace Calculator

namespace Json

/-- The digits of a whole number: zero alone, or digits that do not start with zero. -/
def IsWhole (cs : List Char) : Prop :=
  cs ≠ [] ∧ AllDigits cs ∧ ('0' ∈ cs.head? → cs = ['0'])

/-- The digits behind a point, if there is one. -/
inductive SpellsFraction : List Char → List Char → Prop
  | absent : SpellsFraction [] []
  | digits {digits : List Char} : digits ≠ [] → AllDigits digits →
      SpellsFraction digits ('.' :: digits)

inductive SpellsSign : Bool → List Char → Prop
  | absent : SpellsSign false []
  | plus : SpellsSign false ['+']
  | minus : SpellsSign true ['-']

inductive SpellsPower : Option Int → List Char → Prop
  | absent : SpellsPower none []
  | digits {e : Char} {negative : Bool} {sign digits : List Char} : e.toLower = 'e' →
      SpellsSign negative sign → digits ≠ [] → AllDigits digits →
      SpellsPower (some (integerOfDigits negative digits)) (e :: (sign ++ digits))

/-- The characters behind the sign of a number. -/
inductive SpellsNumber (negative : Bool) : Value → List Char → Prop
  | int {whole : List Char} : IsWhole whole → whole.length ≤ maxIntegerDigits →
      SpellsNumber negative (.int (integerOfDigits negative whole)) whole
  | float {whole fraction point behind : List Char} {power : Option Int} : IsWhole whole →
      SpellsFraction fraction point → SpellsPower power behind → (fraction ≠ [] ∨ power ≠ none) →
      SpellsNumber negative
        (.float (Decimal.ofDigits negative whole fraction (power.getD 0)).toFloat)
        (whole ++ (point ++ behind))

/-- The characters behind the sign of a decimal with a point or a power of ten. -/
inductive SpellsDecimal (negative : Bool) : Decimal → List Char → Prop
  | parts {whole fraction point behind : List Char} {power : Option Int} : IsWhole whole →
      SpellsFraction fraction point → SpellsPower power behind → (fraction ≠ [] ∨ power ≠ none) →
      SpellsDecimal negative (Decimal.ofDigits negative whole fraction (power.getD 0))
        (whole ++ (point ++ behind))

/-- The character can stand right behind a value. -/
def IsBoundary (c : Char) : Prop := isSpace c = true ∨ c = ',' ∨ c = ']' ∨ c = '\x7d'

/-- No character of a number follows. -/
def Ends (rest : List Char) : Prop := ∀ c ∈ rest.head?, IsBoundary c

section

variable {cs rest whole fraction point behind digits : List Char} {c : Char} {negative : Bool}
  {power : Option Int} {v : Value}

theorem isSpace_iff : isSpace c = true ↔ c = ' ' ∨ c = '\t' ∨ c = '\n' ∨ c = '\r' := by
  simp [isSpace, or_assoc]

theorem IsBoundary.not_isDigit (h : IsBoundary c) : ¬c.isDigit := by
  rw [IsBoundary, isSpace_iff] at h
  rcases h with (rfl | rfl | rfl | rfl) | rfl | rfl | rfl <;> decide

theorem IsBoundary.ne_point (h : IsBoundary c) : c ≠ '.' := by
  rw [IsBoundary, isSpace_iff] at h
  rcases h with (rfl | rfl | rfl | rfl) | rfl | rfl | rfl <;> decide

theorem IsBoundary.toLower_ne (h : IsBoundary c) : c.toLower ≠ 'e' := by
  rw [IsBoundary, isSpace_iff] at h
  rcases h with (rfl | rfl | rfl | rfl) | rfl | rfl | rfl <;> decide

theorem toLower_ne_of_isDigit (h : c.isDigit) : c.toLower ≠ 'e' := by
  intro he
  have halpha : c.isAlpha := by
    rw [← Char.isAlpha_toLower_eq_isAlpha, he]
    rfl
  simp only [Char.isDigit, Char.isAlpha, Char.isUpper, Char.isLower, Bool.or_eq_true,
    Bool.and_eq_true, decide_eq_true_eq, UInt32.le_iff_toNat_le] at h halpha
  have hbounds : (65 ≤ c.val.toNat ∧ c.val.toNat ≤ 90) ∨ (97 ≤ c.val.toNat ∧ c.val.toNat ≤ 122) :=
    halpha
  have hle : c.val.toNat ≤ 57 := h.2
  omega

theorem isDigit_headD_iff : (cs.headD ' ').isDigit = true ↔ cs.takeWhile Char.isDigit ≠ [] := by
  cases cs with
  | nil => exact iff_of_false (by decide) (by simp)
  | cons c cs => by_cases h : c.isDigit <;> simp [h]

theorem allDigits_takeWhile (cs : List Char) : AllDigits (cs.takeWhile Char.isDigit) := fun _ hc =>
  List.all_eq_true.1 (List.all_takeWhile ..) _ hc

theorem takeWhile_digits (h : AllDigits digits) (hr : ∀ c ∈ rest.head?, ¬c.isDigit) :
    (digits ++ rest).takeWhile Char.isDigit = digits ∧
      (digits ++ rest).dropWhile Char.isDigit = rest := by
  rw [List.takeWhile_append_of_pos h, List.dropWhile_append_of_pos h]
  cases rest with
  | nil => simp
  | cons c rest =>
    have hc : c.isDigit = false := by simpa using hr c rfl
    simp [hc]

theorem isDigit_headD_append (hne : digits ≠ []) (hd : AllDigits digits) (rest : List Char) :
    ((digits ++ rest).headD ' ').isDigit = true := by
  obtain ⟨c, tail, rfl⟩ := List.exists_cons_of_ne_nil hne
  exact hd c List.mem_cons_self

theorem splitWhole_append (h : IsWhole whole) (hr : ∀ c ∈ rest.head?, ¬c.isDigit) :
    splitWhole (whole ++ rest) = (whole, rest) := by
  obtain ⟨c, tail, rfl⟩ := List.exists_cons_of_ne_nil h.1
  by_cases hc : c = '0'
  · subst hc
    rw [h.2.2 rfl]
    rfl
  · rw [List.cons_append, splitWhole, ← List.cons_append, (takeWhile_digits h.2.1 hr).1,
      (takeWhile_digits h.2.1 hr).2]
    exact fun _ heq => hc (List.cons.inj heq).1

theorem splitWhole_spec (h : splitWhole cs = (whole, rest)) :
    cs = whole ++ rest ∧ (whole ≠ [] → IsWhole whole) := by
  unfold splitWhole at h
  split at h
  · cases h
    exact ⟨rfl, fun _ => ⟨by simp, by simp [AllDigits], fun _ => rfl⟩⟩
  · next hzero =>
    cases h
    refine ⟨(List.takeWhile_append_dropWhile).symm, fun hne => ⟨hne, allDigits_takeWhile _, ?_⟩⟩
    intro h0
    cases cs with
    | nil => cases h0
    | cons c cs =>
      by_cases hc : c.isDigit
      · rw [List.takeWhile_cons_of_pos hc] at h0
        cases h0
        exact absurd rfl (hzero cs)
      · rw [List.takeWhile_cons_of_neg hc] at h0
        cases h0

theorem splitFraction_append (h : SpellsFraction fraction point)
    (hr : ∀ c ∈ rest.head?, ¬c.isDigit ∧ c ≠ '.') :
    splitFraction (point ++ rest) = (fraction, rest) := by
  cases h with
  | absent =>
    rw [List.nil_append, splitFraction]
    rintro cs rfl
    exact (hr '.' rfl).2 rfl
  | digits hne hd =>
    have hsplit := takeWhile_digits hd fun c hc => (hr c hc).1
    rw [List.cons_append, splitFraction, if_pos (isDigit_headD_append hne hd rest), hsplit.1,
      hsplit.2]

theorem splitFraction_spec (h : splitFraction cs = (fraction, rest)) :
    ∃ point, cs = point ++ rest ∧ SpellsFraction fraction point := by
  unfold splitFraction at h
  split at h
  · split at h
    · next hdigit =>
      cases h
      refine ⟨_, ?_, .digits (isDigit_headD_iff.1 hdigit) (allDigits_takeWhile _)⟩
      rw [List.cons_append, List.takeWhile_append_dropWhile]
    · cases h
      exact ⟨[], rfl, .absent⟩
  · cases h
    exact ⟨[], rfl, .absent⟩

theorem splitSign_digits (hne : digits ≠ []) (hd : AllDigits digits) (rest : List Char) :
    splitSign (digits ++ rest) = (false, digits ++ rest) := by
  obtain ⟨c, tail, rfl⟩ := List.exists_cons_of_ne_nil hne
  have hc : c.isDigit = true := hd c List.mem_cons_self
  rw [List.cons_append, splitSign]
  · rintro _ heq
    obtain ⟨rfl, -⟩ := List.cons.inj heq
    cases hc
  · rintro _ heq
    obtain ⟨rfl, -⟩ := List.cons.inj heq
    cases hc

theorem SpellsSign.splitSign_eq {sign : List Char} (h : SpellsSign negative sign)
    (hne : digits ≠ []) (hd : AllDigits digits) (rest : List Char) :
    splitSign (sign ++ digits ++ rest) = (negative, digits ++ rest) := by
  cases h with
  | absent => exact splitSign_digits hne hd rest
  | plus => rfl
  | minus => rfl

theorem splitPower_append (h : SpellsPower power behind) (hr : Ends rest) :
    splitPower (behind ++ rest) = (power, rest) := by
  cases h with
  | absent =>
    cases rest with
    | nil => rfl
    | cons c rest => exact if_neg fun h => (hr c rfl).toLower_ne h.1
  | @digits e negative sign digits he hs hne hd =>
    have hsplit := takeWhile_digits hd fun c hc => (hr c hc).not_isDigit
    rw [List.cons_append, splitPower, hs.splitSign_eq hne hd]
    simp only [isDigit_headD_iff, hsplit, he, true_and, ne_eq, hne, not_false_eq_true, if_true]

theorem splitSign_spec {digits : List Char} (h : splitSign cs = (negative, digits)) :
    ∃ sign, cs = sign ++ digits ∧ SpellsSign negative sign := by
  unfold splitSign at h
  split at h <;> cases h
  · exact ⟨_, rfl, .minus⟩
  · exact ⟨_, rfl, .plus⟩
  · exact ⟨_, rfl, .absent⟩

theorem splitPower_spec (h : splitPower cs = (power, rest)) :
    ∃ behind, cs = behind ++ rest ∧ SpellsPower power behind := by
  cases cs with
  | nil =>
    cases h
    exact ⟨[], rfl, .absent⟩
  | cons c cs =>
    obtain ⟨sign, hcs, hsign⟩ := splitSign_spec (Prod.mk.eta (p := splitSign cs)).symm
    simp only [splitPower, isDigit_headD_iff] at h
    split at h
    · next hpower =>
      cases h
      refine ⟨_, ?_, .digits hpower.1 hsign hpower.2 (allDigits_takeWhile _)⟩
      rw [List.cons_append, List.append_assoc, List.takeWhile_append_dropWhile, ← hcs]
    · cases h
      exact ⟨[], rfl, .absent⟩

theorem SpellsPower.head_append (h : SpellsPower power behind)
    (hr : ∀ c ∈ rest.head?, ¬c.isDigit ∧ c ≠ '.') :
    ∀ c ∈ (behind ++ rest).head?, ¬c.isDigit ∧ c ≠ '.' := by
  cases h with
  | absent => exact hr
  | digits he =>
    rintro c hc
    cases hc
    constructor
    · exact fun hdigit => toLower_ne_of_isDigit hdigit he
    · rintro rfl
      cases he

theorem SpellsFraction.head_append (h : SpellsFraction fraction point)
    (hr : ∀ c ∈ rest.head?, ¬c.isDigit) : ∀ c ∈ (point ++ rest).head?, ¬c.isDigit := by
  cases h with
  | absent => exact hr
  | digits =>
    rintro c hc
    cases hc
    decide

/-- What spells a number is read to its end if no more of a number follows. -/
theorem SpellsNumber.readNumber_eq (h : SpellsNumber negative v cs) (hr : Ends rest) :
    readNumber negative (cs ++ rest) = .ok (v, rest) := by
  have hdigit : ∀ c ∈ rest.head?, ¬c.isDigit ∧ c ≠ '.' := fun c hc =>
    ⟨(hr c hc).not_isDigit, (hr c hc).ne_point⟩
  cases h with
  | @int whole hw hlength =>
    have hfraction := splitFraction_append .absent hdigit
    have hpower := splitPower_append .absent hr
    rw [List.nil_append] at hfraction hpower
    simp only [readNumber, splitWhole_append hw fun c hc => (hdigit c hc).1, hfraction, hpower,
      if_neg hw.1, if_neg (Nat.not_lt.2 hlength), and_self, if_true]
  | @float whole fraction point behind power hw hf hp hne =>
    have hbehind := hp.head_append hdigit
    have hpoint := hf.head_append fun c hc => (hbehind c hc).1
    have hnone : ¬(fraction = [] ∧ power = none) := by
      rcases hne with hne | hne <;> simp [hne]
    simp only [readNumber, List.append_assoc, splitWhole_append hw hpoint,
      splitFraction_append hf hbehind, splitPower_append hp hr, if_neg hw.1, if_neg hnone]

/-- What is read as a number spells it. -/
theorem exists_spellsNumber (h : readNumber negative cs = .ok (v, rest)) :
    ∃ pre, cs = pre ++ rest ∧ SpellsNumber negative v pre := by
  obtain ⟨whole, cs₁, hwhole⟩ : ∃ whole cs₁, splitWhole cs = (whole, cs₁) := ⟨_, _, rfl⟩
  obtain ⟨fraction, cs₂, hfraction⟩ : ∃ fraction cs₂, splitFraction cs₁ = (fraction, cs₂) :=
    ⟨_, _, rfl⟩
  obtain ⟨power, cs₃, hpower⟩ : ∃ power cs₃, splitPower cs₂ = (power, cs₃) := ⟨_, _, rfl⟩
  simp only [readNumber, hwhole, hfraction, hpower] at h
  obtain ⟨rfl, hw⟩ := splitWhole_spec hwhole
  obtain ⟨point, rfl, hf⟩ := splitFraction_spec hfraction
  obtain ⟨behind, rfl, hp⟩ := splitPower_spec hpower
  split_ifs at h with hne hint hlength
  · obtain ⟨rfl, rfl⟩ := hint
    cases hf with
    | digits hempty => exact absurd rfl hempty
    | absent =>
      cases hp
      cases h
      exact ⟨whole, rfl, .int (hw hne) (Nat.not_lt.1 hlength)⟩
  · cases h
    exact ⟨_, by simp only [List.append_assoc], .float (hw hne) hf hp (not_and_or.1 hint)⟩

end

theorem isWhole_toDigits (n : Nat) : IsWhole (Nat.toDigits 10 n) := by
  refine ⟨Nat.toDigits_ne_nil, allDigits_toDigits n, ?_⟩
  induction n using Nat.strongRecOn with
  | ind n ih =>
    by_cases hn : n < 10
    · rw [Nat.toDigits_of_lt_base hn]
      intro h
      rw [List.head?_cons, Option.mem_some] at h
      rw [h]
    · rw [Nat.toDigits_of_base_le (by decide) (Nat.not_lt.1 hn),
        List.head?_append_of_ne_nil _ Nat.toDigits_ne_nil]
      intro h
      have hzero := congrArg (Nat.ofDigitChars 10 · 0) (ih (n / 10) (by omega) h)
      rw [Nat.ofDigitChars_ten_toDigits] at hzero
      have : n / 10 = 0 := hzero
      omega

theorem integerOfDigits_toDigits (i : Int) :
    integerOfDigits (decide (i < 0)) (Nat.toDigits 10 i.natAbs) = i := by
  rw [integerOfDigits, Nat.ofDigitChars_ten_toDigits]
  by_cases h : i < 0
  · simp only [h, decide_true, if_true]
    omega
  · simp only [h, decide_false, Bool.false_eq_true, if_false]
    omega

theorem spellsNumber_int {i : Int} (h : i.natAbs < 10 ^ maxIntegerDigits) :
    SpellsNumber (decide (i < 0)) (.int i) (Nat.toDigits 10 i.natAbs) := by
  have hlength : (Nat.toDigits 10 i.natAbs).length ≤ maxIntegerDigits :=
    (Nat.length_toDigits_le_iff (by decide) (by decide)).2 h
  have hspelled : SpellsNumber (decide (i < 0)) _ _ := .int (isWhole_toDigits _) hlength
  rwa [integerOfDigits_toDigits] at hspelled

section

variable {v : Float}

/-- A float in positional notation keeps a place behind the point. -/
theorem exponent_ofFloat_neg (h : (Decimal.ofFloat v).isPositional = true) :
    (Decimal.ofFloat v).exponent < 0 := by
  revert h
  simp only [Decimal.ofFloat]
  split
  · exact fun _ => Int.negSucc_lt_zero 0
  · split
    · exact fun _ => Int.negSucc_lt_zero 0
    · next hlarge => exact fun h => Int.not_le.1 fun he => hlarge ⟨he, h⟩

theorem integerOfDigits_leftpad (negative : Bool) (digits : List Char) (n : Nat) :
    integerOfDigits negative (digits.leftpad n '0') = integerOfDigits negative digits := by
  rw [integerOfDigits, integerOfDigits, List.leftpad, Nat.ofDigitChars_append,
    Nat.ofDigitChars_replicate_zero, Nat.mul_zero]

theorem spellsDecimal_positional {d : Decimal} (he : d.exponent < 0) :
    SpellsDecimal d.negative d d.positional := by
  have hfraction : (Nat.toDigits 10 (d.coefficient % tens (-d.exponent))).leftpad
      (-d.exponent).toNat '0' ≠ [] := by
    refine List.ne_nil_of_length_pos ?_
    rw [List.length_leftpad]
    omega
  have hspelled : SpellsDecimal d.negative _ _ :=
    .parts (isWhole_toDigits (d.coefficient / tens (-d.exponent)))
      (.digits hfraction (allDigits_leftpad (allDigits_toDigits _) _)) .absent (.inl hfraction)
  rw [Option.getD_none, Decimal.ofDigits_split d.negative he, List.append_nil] at hspelled
  rwa [Decimal.positional, if_neg (Int.not_le.2 he)]

theorem spellsDecimal_scientific (d : Decimal) : SpellsDecimal d.negative d
    (Decimal.scientific (Nat.toDigits 10 d.coefficient) d.leadingPlace) := by
  obtain ⟨c, tail, hdigits⟩ := List.exists_cons_of_ne_nil
    (Nat.toDigits_ne_nil (n := d.coefficient) (b := 10))
  have hall : AllDigits (c :: tail) := hdigits ▸ allDigits_toDigits _
  have hwhole : IsWhole [c] := by
    refine ⟨by simp, fun x hx => hall x (by simp_all), fun h => ?_⟩
    cases h
    rfl
  have hpoint : SpellsFraction tail (if (c :: tail).length ≤ 1 then [] else '.' :: tail) := by
    cases tail with
    | nil => exact .absent
    | cons c' tail =>
      rw [if_neg (by simp)]
      exact .digits (by simp) fun x hx => hall x (by simp_all)
  have hplace : (Nat.toDigits 10 d.leadingPlace.natAbs).leftpad 2 '0' ≠ [] := by
    refine List.ne_nil_of_length_pos ?_
    rw [List.length_leftpad]
    omega
  have hsign : SpellsSign (decide (d.leadingPlace < 0))
      [if d.leadingPlace < 0 then '-' else '+'] := by
    by_cases h : d.leadingPlace < 0
    · simpa only [h, decide_true, if_true] using SpellsSign.minus
    · simpa only [h, decide_false, if_false] using SpellsSign.plus
  have hpower := SpellsPower.digits (e := 'e') rfl hsign hplace
    (allDigits_leftpad (allDigits_toDigits _) _)
  rw [integerOfDigits_leftpad, integerOfDigits_toDigits] at hpower
  have hspelled : SpellsDecimal d.negative _ _ := .parts hwhole hpoint hpower (.inr (by simp))
  have hvalue : Decimal.ofDigits d.negative [c] tail d.leadingPlace = d := by
    have hcoefficient : Nat.ofDigitChars 10 ([c] ++ tail) 0 = d.coefficient := by
      rw [List.singleton_append, ← hdigits, Nat.ofDigitChars_ten_toDigits]
    have hexponent : d.leadingPlace - tail.length = d.exponent := by
      rw [Decimal.leadingPlace, digitCount_eq, hdigits, List.length_cons]
      omega
    rw [Decimal.ofDigits, hcoefficient, hexponent]
  rw [Option.getD_some, hvalue] at hspelled
  simpa [Decimal.scientific, hdigits] using hspelled

/-- A finite float is written with its decimal. -/
theorem spellsDecimal_float (hv : v.isFinite = true) : ∃ cs,
    SpellsDecimal (Decimal.ofFloat v).negative (Decimal.ofFloat v) cs ∧
      (floatText v).toList = withSign (Decimal.ofFloat v).negative cs := by
  rw [floatText, if_pos hv, Decimal.text, String.toList_ofList]
  refine ⟨_, ?_, rfl⟩
  split
  · next h => exact spellsDecimal_positional (exponent_ofFloat_neg h)
  · exact spellsDecimal_scientific _

theorem SpellsDecimal.spellsNumber {d : Decimal} {cs : List Char} {negative : Bool}
    (h : SpellsDecimal negative d cs) : SpellsNumber negative (.float d.toFloat) cs := by
  obtain ⟨hw, hf, hp, hne⟩ := h
  exact .float hw hf hp hne

/-- A finite float is written as it is spelled. -/
theorem spellsNumber_float (hv : v.isFinite = true) : ∃ cs,
    SpellsNumber (Decimal.ofFloat v).negative (.float v) cs ∧
      (floatText v).toList = withSign (Decimal.ofFloat v).negative cs := by
  obtain ⟨cs, hspelled, htext⟩ := spellsDecimal_float hv
  refine ⟨cs, ?_, htext⟩
  have hnumber := hspelled.spellsNumber
  rwa [toFloat_ofFloat hv] at hnumber

end

end Json

end Calculator
