import Calculator.Proofs.Float.Order
import Calculator.Proofs.Lexing.Scan

/-!
# Numerals of short texts

A numeral of a text is no longer than the text, and its value lies below the power of ten with as
many zeros as the numeral has characters. So a text of at most 308 characters has finite numerals
only.
-/

namespace Calculator

theorem magnitude_ofDigits_lt {whole fraction : List Char} (hw : AllDigits whole)
    (hf : AllDigits fraction) : (Decimal.ofDigits false whole fraction 0).magnitude <
      10 ^ (whole.length + fraction.length) := by
  have hlt := ofDigitChars_lt (allDigits_append.2 ⟨hw, hf⟩) 0
  rw [Nat.zero_add, Nat.one_mul, List.length_append] at hlt
  rw [Decimal.ofDigits, Decimal.magnitude]
  refine (mul_le_of_le_one_right (Nat.cast_nonneg _) ?_).trans_lt (by exact_mod_cast hlt)
  exact zpow_le_one_of_nonpos₀ (by norm_num) (by dsimp only; omega)

theorem isFinite_ofDigits {whole fraction : List Char} (hw : AllDigits whole)
    (hf : AllDigits fraction) (hlength : whole.length + fraction.length ≤ 308) :
    (Decimal.ofDigits false whole fraction 0).toFloat.isFinite = true := by
  have hlarge : (Decimal.toFloat ⟨false, 1, 308⟩).isFinite = true := by decide +kernel
  refine Decimal.isFinite_of_le ((magnitude_ofDigits_lt hw hf).le.trans ?_) hlarge
  have hpower : (10 : ℚ) ^ (308 : Int) = 10 ^ 308 := zpow_natCast 10 308
  rw [Decimal.magnitude, Nat.cast_one, one_mul, hpower]
  exact pow_le_pow_right₀ (by norm_num) hlength

namespace Lexer

theorem IsRead.digits {lexeme rest : List Char} (h : IsRead lexeme .number rest) :
    AllDigits lexeme ∧ (∀ c ∈ rest.head?, c.isDigit = false ∧ c ≠ '.') ∨
    ∃ whole fraction, lexeme = whole ++ '.' :: fraction ∧ AllDigits whole ∧ AllDigits fraction ∧
      ∀ c ∈ rest.head?, c.isDigit = false := by
  obtain ⟨c, cs, rfl, -, hl⟩ := h
  rcases lexeme?_cases hl with ⟨-, -, hsplit, -⟩ | ⟨-, -, hword, -⟩ | ⟨-, -, hsign, -⟩
  · rcases exists_digits (c :: (cs ++ rest)) with
      ⟨whole, after, heq, hw, hstop⟩ | ⟨whole, fraction, after, heq, hw, hf, hstop⟩
    · rw [heq, splitNumeral_digits hw hstop] at hsplit
      obtain ⟨rfl, rfl⟩ := Prod.mk.inj hsplit
      exact .inl ⟨hw, hstop⟩
    · rw [heq, splitNumeral_point hw hf hstop] at hsplit
      obtain ⟨hlexeme, rfl⟩ := Prod.mk.inj hsplit
      exact .inr ⟨whole, fraction, hlexeme.symm, hw, hf, hstop⟩
  · exact absurd hword.symm (wordKind_ne (by nofun) (by nofun) (by nofun) _)
  · unfold signKind? at hsign
    split at hsign <;> cases hsign

theorem Scans.exists_isRead {cursor : Cursor} {cs rest : List Char} {ts : List Token} {t : Token}
    (h : Scans cursor cs ts rest) (ht : t ∈ ts) :
    ∃ lexeme after, IsRead lexeme t.kind after ∧ t.text = String.ofList lexeme ∧
      lexeme.length ≤ cs.length := by
  induction h with
  | nil => cases ht
  | @cons _ blanks lexeme cs rest kind ts hb hl h ih =>
    simp only [List.length_append]
    rcases List.mem_cons.1 ht with rfl | hmem
    · exact ⟨lexeme, cs ++ rest, hl, rfl, by omega⟩
    · obtain ⟨lexeme', after, hread, htext, hle⟩ := ih hmem
      exact ⟨lexeme', after, hread, htext, by omega⟩

end Lexer

/-- The numerals of a text of at most 308 characters are finite. -/
theorem isFinite_numeralValue_of_mem {text : String} {t : Token} (ht : t ∈ (tokenize text).tokens)
    (hk : t.kind = .number) (hlength : text.length ≤ 308) :
    (numeralValue t.text).isFinite = true := by
  obtain ⟨before, after, hsplit⟩ := List.append_of_mem ht
  have htokens : (tokenize text).tokens = (before ++ [t]) ++ after := by
    rw [hsplit, List.append_assoc]
    rfl
  obtain ⟨front, rest, htext, hscans⟩ := Lexer.exists_scans htokens
  obtain ⟨lexeme, behind, hread, hlexeme, hle⟩ := hscans.exists_isRead (t := t) (by simp)
  have hshort : lexeme.length ≤ 308 := by
    have hfront := congrArg List.length htext
    rw [String.length_toList, List.length_append] at hfront
    omega
  rw [hk] at hread
  rw [numeralValue, hlexeme, String.toList_ofList]
  rcases hread.digits with ⟨hdigits, -⟩ | ⟨whole, fraction, rfl, hw, hf, -⟩
  · rw [ofNumeral_digits hdigits]
    exact isFinite_ofDigits hdigits (by simp [AllDigits]) (by simpa using hshort)
  · rw [Decimal.ofNumeral, splitPoint_point fraction hw]
    rw [List.length_append, List.length_cons] at hshort
    exact isFinite_ofDigits hw hf (by omega)

end Calculator
