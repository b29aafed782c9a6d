import Calculator.Json.Reader
import Calculator.Json.Writer
import Calculator.Proofs.Outcome
import Mathlib.Data.List.Chain
import Mathlib.Tactic.IntervalCases

/-!
# Strings in JSON

`SpellsUnits` says which characters spell a sequence of code point numbers between two quotation
marks; reading a string inverts it. The text that is read never has the first half of a pair right
before a second half, and every text without two such neighbours is written so that it is read back.
-/

namespace Calculator

open Text

namespace Json

/-- The characters between two quotation marks spell code points with the given numbers. -/
inductive SpellsUnits : List Nat → List Char → Prop
  | nil : SpellsUnits [] []
  /-- A character that stands for itself. -/
  | plain {c : Char} {units : List Nat} {cs : List Char} : c ≠ '"' → c ≠ '\\' → 0x20 ≤ c.toNat →
      SpellsUnits units cs → SpellsUnits (c.toNat :: units) (c :: cs)
  /-- A letter behind a backslash. -/
  | escape {c e : Char} {units : List Nat} {cs : List Char} : escaped? c = some e →
      SpellsUnits units cs → SpellsUnits (e.toNat :: units) ('\\' :: c :: cs)
  /-- An escape by number. -/
  | unit {a b c d : Char} {unit : Nat} {units : List Nat} {cs : List Char} :
      hexUnit? a b c d = some unit → SpellsUnits units cs →
      SpellsUnits (unit :: units) ('\\' :: 'u' :: a :: b :: c :: d :: cs)

variable {units : List Nat} {cs rest : List Char}

theorem readUnits_plain {c : Char} (hq : c ≠ '"') (hb : c ≠ '\\') :
    readUnits (c :: cs) = if c.toNat < 0x20 then .error .malformed
      else (readUnits cs).map fun (units, cs) => (c.toNat :: units, cs) := by
  rw [readUnits]
  · simp [hb]
  · exact hq
  · rintro _ _ _ _ _ rfl
    exact absurd rfl hb
  · rintro _ _ rfl
    exact absurd rfl hb

theorem ne_u_of_escaped? {c e : Char} (h : escaped? c = some e) : c ≠ 'u' := by
  rintro rfl
  cases h

theorem readUnits_escape {c e : Char} (he : escaped? c = some e) :
    readUnits ('\\' :: c :: cs) =
      (readUnits cs).map fun (units, cs) => (e.toNat :: units, cs) := by
  rw [readUnits]
  · simp only [he]
  · rintro _ _ _ _ _ rfl
    exact absurd rfl (ne_u_of_escaped? he)

/-- What spells a string is read up to its closing quotation mark. -/
theorem SpellsUnits.readUnits_eq (h : SpellsUnits units cs) (rest : List Char) :
    readUnits (cs ++ '"' :: rest) = .ok (units, rest) := by
  induction h with
  | nil => rfl
  | plain hq hb hc _ ih =>
    rw [List.cons_append, readUnits_plain hq hb, if_neg (by omega), ih]
    rfl
  | escape he _ ih =>
    rw [List.cons_append, List.cons_append, readUnits_escape he, ih]
    rfl
  | unit hu _ ih =>
    simp only [List.cons_append, readUnits, hu, ih]
    rfl

theorem exists_spellsUnits (h : readUnits cs = .ok (units, rest)) :
    ∃ pre, cs = pre ++ '"' :: rest ∧ SpellsUnits units pre := by
  fun_induction readUnits cs generalizing units with
  | case1 => cases h
  | case2 cs =>
    cases h
    exact ⟨[], rfl, .nil⟩
  | case3 => cases h
  | case4 a b c d cs unit hunit ih =>
    obtain ⟨⟨units', rest'⟩, hread, heq⟩ := map_eq_ok_iff.1 h
    cases heq
    obtain ⟨pre, rfl, hpre⟩ := ih hread
    exact ⟨_, rfl, .unit hunit hpre⟩
  | case5 => cases h
  | case6 c cs _ e he ih =>
    obtain ⟨⟨units', rest'⟩, hread, heq⟩ := map_eq_ok_iff.1 h
    cases heq
    obtain ⟨pre, rfl, hpre⟩ := ih hread
    exact ⟨_, rfl, .escape he hpre⟩
  | case7 => cases h
  | case8 c cs hquote hunit hescape hplain ih =>
    obtain ⟨⟨units', rest'⟩, hread, heq⟩ := map_eq_ok_iff.1 h
    cases heq
    obtain ⟨pre, rfl, hpre⟩ := ih hread
    rw [not_or, Nat.not_lt] at hplain
    exact ⟨_, rfl, .plain hquote hplain.1 hplain.2 hpre⟩

end Json

namespace Text

def CodePoint.number : CodePoint → Nat
  | char c => c.toNat
  | half place => halfNumber place

/-- The code points may stand one right behind the other: they are not the halves of a pair. -/
def Apart (p q : CodePoint) : Prop := ¬(isHighHalf p.number ∧ isLowHalf q.number)

/-- No two halves of a pair stand one right behind the other. -/
def LooseText.IsJoined (t : LooseText) : Prop := t.points.IsChain Apart

theorem isHighHalf_iff {n : Nat} : isHighHalf n = true ↔ 0xd800 ≤ n ∧ n < 0xdc00 := by
  rw [isHighHalf, Bool.and_eq_true, decide_eq_true_iff, decide_eq_true_iff]
  rfl

theorem isLowHalf_iff {n : Nat} : isLowHalf n = true ↔ 0xdc00 ≤ n ∧ n < 0xe000 := by
  rw [isLowHalf, Bool.and_eq_true, decide_eq_true_iff, decide_eq_true_iff]
  rfl

theorem isHighHalf_char (c : Char) : ¬isHighHalf c.toNat := by
  have hc : c.toNat < 0xd800 ∨ 0xdfff < c.toNat ∧ c.toNat < 0x110000 := c.valid
  rw [isHighHalf_iff]
  omega

theorem isLowHalf_char (c : Char) : ¬isLowHalf c.toNat := by
  have hc : c.toNat < 0xd800 ∨ 0xdfff < c.toNat ∧ c.toNat < 0x110000 := c.valid
  rw [isLowHalf_iff]
  omega

theorem CodePoint.number_ofNumber {n : Nat} (h : 0xd800 ≤ n ∧ n < 0xe000) :
    (ofNumber n).number = n := by
  have hn : firstHalf ≤ n ∧ n - firstHalf < halfCount := by
    simp only [firstHalf, halfCount]
    omega
  rw [ofNumber, dif_pos hn]
  exact Nat.add_sub_of_le hn.1

theorem CodePoint.ofNumber_eq_char {n : Nat} (h : ¬(0xd800 ≤ n ∧ n < 0xe000)) :
    ofNumber n = char (Char.ofNat n) := by
  rw [ofNumber, dif_neg]
  simp only [firstHalf, halfCount]
  omega

theorem apart_ofNumber {m n : Nat} :
    Apart (.ofNumber m) (.ofNumber n) ↔ ¬(isHighHalf m ∧ isLowHalf n) := by
  rw [Apart]
  by_cases hm : 0xd800 ≤ m ∧ m < 0xe000
  · by_cases hn : 0xd800 ≤ n ∧ n < 0xe000
    · rw [CodePoint.number_ofNumber hm, CodePoint.number_ofNumber hn]
    · rw [CodePoint.ofNumber_eq_char hn]
      refine iff_of_true (fun h => isLowHalf_char _ h.2) ?_
      rw [isLowHalf_iff]
      omega
  · rw [CodePoint.ofNumber_eq_char hm]
    refine iff_of_true (fun h => isHighHalf_char _ h.1) ?_
    rw [isHighHalf_iff]
    omega

/-- A text holds no half of a pair. -/
theorem LooseText.isJoined_ofString (s : String) : (ofString s).IsJoined := by
  rw [IsJoined, ofString, List.isChain_map]
  exact (List.pairwise_of_forall fun c _ h => isHighHalf_char c h.1).isChain

end Text

namespace Json

theorem joinPairs_cons {n : Nat} {units : List Nat}
    (h : ∀ m ∈ units.head?, ¬(isHighHalf n ∧ isLowHalf m)) :
    joinPairs (n :: units) = .ofNumber n :: joinPairs units := by
  cases units with
  | nil => rfl
  | cons m units =>
    rw [joinPairs, if_neg]
    simpa using h m rfl

theorem joinPairs_pair {high low : Nat} (hh : isHighHalf high) (hl : isLowHalf low)
    (units : List Nat) :
    joinPairs (high :: low :: units) = .char (charOfPair high low) :: joinPairs units := by
  rw [joinPairs, if_pos (by rw [hh, hl]; rfl)]

theorem head?_joinPairs {n : Nat} {units : List Nat} {p : CodePoint}
    (h : p ∈ (joinPairs (n :: units)).head?) : p = .ofNumber n ∨ ∃ c, p = .char c := by
  cases units with
  | nil =>
    cases h
    exact .inl rfl
  | cons m units =>
    rw [joinPairs] at h
    split at h
    · cases h
      exact .inr ⟨_, rfl⟩
    · cases h
      exact .inl rfl

/-- What is read has no pair of halves in it. -/
theorem isJoined_joinPairs (units : List Nat) : LooseText.IsJoined ⟨joinPairs units⟩ := by
  rw [LooseText.IsJoined]
  fun_induction joinPairs units with
  | case1 high low units hpair ih =>
    exact List.isChain_cons.2 ⟨fun q _ h => isHighHalf_char _ h.1, ih⟩
  | case2 high low units hpair ih =>
    refine List.isChain_cons.2 ⟨fun q hq => ?_, ih⟩
    obtain rfl | ⟨c, rfl⟩ := head?_joinPairs hq
    · rwa [apart_ofNumber, ← Bool.and_eq_true]
    · exact fun h => isLowHalf_char c h.2
  | case3 unit => exact .singleton _
  | case4 => exact .nil

/-- The numbers by which a code point is written: past the first 65536 those of two halves. -/
def unitsOf : CodePoint → List Nat
  | .char c =>
    if c.toNat < 0x10000 then [c.toNat]
    else [firstHalf + (c.toNat - 0x10000) / 0x400, firstLowHalf + (c.toNat - 0x10000) % 0x400]
  | .half place => [CodePoint.halfNumber place]

theorem hexValue?_digitChar {n : Nat} (h : n < 16) : hexValue? n.digitChar = some n := by
  interval_cases n <;> rfl

theorem hexadecimal_four {n : Nat} (h : n < 0x10000) : hexadecimal 4 n =
    [(n / 0x1000).digitChar, (n / 0x100 % 0x10).digitChar, (n / 0x10 % 0x10).digitChar,
      (n % 0x10).digitChar] := by
  have hzero : ∀ m : Nat, m = 0 → m.digitChar = '0' := fun m hm => Nat.digitChar_eq_zero.2 hm
  have hhundred : n / 0x10 / 0x10 = n / 0x100 := Nat.div_div_eq_div_mul ..
  have hthousand : n / 0x100 / 0x10 = n / 0x1000 := Nat.div_div_eq_div_mul ..
  rw [hexadecimal]
  by_cases h₁ : n < 0x10
  · rw [Nat.toDigits_of_lt_base h₁, hzero (n / 0x1000) (by omega),
      hzero (n / 0x100 % 0x10) (by omega), hzero (n / 0x10 % 0x10) (by omega), Nat.mod_eq_of_lt h₁]
    rfl
  by_cases h₂ : n < 0x100
  · rw [Nat.toDigits_of_base_le (by decide) (by omega), Nat.toDigits_of_lt_base (by omega),
      hzero (n / 0x1000) (by omega), hzero (n / 0x100 % 0x10) (by omega),
      Nat.mod_eq_of_lt (by omega : n / 0x10 < 0x10)]
    rfl
  by_cases h₃ : n < 0x1000
  · rw [Nat.toDigits_of_base_le (by decide) (by omega),
      Nat.toDigits_of_base_le (by decide) (by omega), Nat.toDigits_of_lt_base (by omega),
      hzero (n / 0x1000) (by omega), hhundred, Nat.mod_eq_of_lt (by omega : n / 0x100 < 0x10)]
    rfl
  · rw [Nat.toDigits_of_base_le (by decide) (by omega),
      Nat.toDigits_of_base_le (by decide) (by omega),
      Nat.toDigits_of_base_le (by decide) (by omega), Nat.toDigits_of_lt_base (by omega),
      hhundred, hthousand]
    rfl

variable {units : List Nat} {cs : List Char}

theorem SpellsUnits.unitEscape {n : Nat} (hn : n < 0x10000) (h : SpellsUnits units cs) :
    SpellsUnits (n :: units) (unitEscape n ++ cs) := by
  rw [Json.unitEscape, hexadecimal_four hn]
  refine .unit ?_ h
  have hmod : ∀ m : Nat, hexValue? (m % 0x10).digitChar = some (m % 0x10) := fun m =>
    hexValue?_digitChar (Nat.mod_lt _ (by decide))
  have hvalue : ((n / 0x1000) * 16 + n / 0x100 % 0x10) * 256 + n / 0x10 % 0x10 * 16 +
      n % 0x10 = n := by omega
  simp only [hexUnit?, hexValue?_digitChar (show n / 0x1000 < 16 by omega), hmod]
  exact congrArg some hvalue

theorem SpellsUnits.stringChar (c : Char) (h : SpellsUnits units cs) :
    SpellsUnits (unitsOf (.char c) ++ units) (stringChar c ++ cs) := by
  rw [Json.stringChar]
  by_cases hplain : c.toNat < 0x10000
  · rw [unitsOf, if_pos hplain]
    split_ifs with h₁ h₂ h₃ h₄ h₅ h₆ h₇ h₈
    · exact .escape (e := c) (by rw [h₁]; rfl) h
    · exact .escape (e := c) (by rw [h₂]; rfl) h
    · exact .escape (e := c) (by rw [h₃]; rfl) h
    · exact .escape (e := c) (by rw [h₄]; rfl) h
    · exact .escape (e := c) (by rw [h₅]; rfl) h
    · exact .escape (e := c) (by rw [h₆]; rfl) h
    · exact .escape (e := c) (by rw [h₇]; rfl) h
    · exact .plain h₁ h₂ h₈.1 h
    · exact h.unitEscape hplain
  · have hvalid : c.toNat < 0xd800 ∨ 0xdfff < c.toNat ∧ c.toNat < 0x110000 := c.valid
    have hne : ∀ d : Char, d.toNat < 0x10000 → c ≠ d := by
      rintro d hd rfl
      exact hplain hd
    have hascii : ¬(' ' ≤ c ∧ c ≤ '~') := by
      rintro ⟨-, hle⟩
      have hle : c.toNat ≤ 0x7e := hle
      omega
    rw [unitsOf, if_neg hplain, if_neg (hne _ (by decide)), if_neg (hne _ (by decide)),
      if_neg (hne _ (by decide)), if_neg (hne _ (by decide)), if_neg (hne _ (by decide)),
      if_neg (hne _ (by decide)), if_neg (hne _ (by decide)), if_neg hascii, if_neg hplain,
      List.append_assoc]
    simp only [firstHalf, firstLowHalf]
    exact (h.unitEscape (by omega)).unitEscape (by omega)

theorem halfNumber_lt (place : Fin halfCount) : CodePoint.halfNumber place < 0x10000 := by
  have hplace : place.val < 0x800 := place.isLt
  simp only [CodePoint.halfNumber, firstHalf]
  omega

theorem SpellsUnits.stringPoint (p : CodePoint) (h : SpellsUnits units cs) :
    SpellsUnits (unitsOf p ++ units) (stringPoint p ++ cs) := by
  cases p with
  | char c => exact h.stringChar c
  | half place => exact h.unitEscape (halfNumber_lt place)

theorem spellsUnits_flatMap (points : List CodePoint) :
    SpellsUnits (points.flatMap unitsOf) (points.flatMap stringPoint) := by
  induction points with
  | nil => exact .nil
  | cons p points ih => exact ih.stringPoint p

/-- A pair of halves is the character they were made from. -/
theorem charOfPair_halves {c : Char} (h : ¬c.toNat < 0x10000) :
    charOfPair (firstHalf + (c.toNat - 0x10000) / 0x400)
      (firstLowHalf + (c.toNat - 0x10000) % 0x400) = c := by
  rw [charOfPair, Nat.add_sub_cancel_left, Nat.add_sub_cancel_left]
  refine Eq.trans (congrArg Char.ofNat ?_) (Char.ofNat_toNat c)
  omega

theorem isLowHalf_of_head?_unitsOf {p : CodePoint} {more : List Nat} {m : Nat}
    (h : m ∈ (unitsOf p ++ more).head?) (hm : isLowHalf m) : isLowHalf p.number := by
  cases p with
  | half place =>
    cases h
    exact hm
  | char c =>
    have hvalid : c.toNat < 0xd800 ∨ 0xdfff < c.toNat ∧ c.toNat < 0x110000 := c.valid
    rw [unitsOf] at h
    split at h
    · cases h
      exact hm
    · cases h
      rw [isLowHalf_iff, firstHalf] at hm
      omega

/-- The numbers of a text whose halves are apart make up the text again. -/
theorem joinPairs_unitsOf {points : List CodePoint} (h : points.IsChain Apart) :
    joinPairs (points.flatMap unitsOf) = points := by
  induction points with
  | nil => rfl
  | cons p points ih =>
    obtain ⟨hhead, htail⟩ := List.isChain_cons.1 h
    rw [List.flatMap_cons]
    cases p with
    | half place =>
      rw [unitsOf, List.singleton_append, joinPairs_cons, ih htail, CodePoint.ofNumber_halfNumber]
      rintro m hm ⟨hhigh, hlow⟩
      cases points with
      | nil => cases hm
      | cons q points => exact hhead q rfl ⟨hhigh, isLowHalf_of_head?_unitsOf hm hlow⟩
    | char c =>
      rw [unitsOf]
      split
      · rw [List.singleton_append, joinPairs_cons, ih htail, CodePoint.ofNumber_toNat]
        exact fun m _ hm => isHighHalf_char c hm.1
      · next hpair =>
        have hvalid : c.toNat < 0xd800 ∨ 0xdfff < c.toNat ∧ c.toNat < 0x110000 := c.valid
        rw [List.cons_append, List.singleton_append, joinPairs_pair, ih htail,
          charOfPair_halves hpair]
        · rw [isHighHalf_iff, firstHalf]
          omega
        · rw [isLowHalf_iff, firstLowHalf]
          omega

end Json

end Calculator
