import Calculator.Proofs.Lexing

/-!
# Where lexemes end and where none starts

A lexeme is looked for one character past its end and no farther. What follows it can therefore be
exchanged for anything that starts with the same character, or with one that no numeral and no word
goes on with. Where the lexer finds no lexeme, there is none.
-/

namespace Calculator

/-- Digits with at most one point, and at least one digit. -/
def IsNumber (cs : List Char) : Prop :=
  (∃ c ∈ cs, c.isDigit = true) ∧ cs.count '.' ≤ 1 ∧ ∀ c ∈ cs, c.isDigit = true ∨ c = '.'

/-- A letter or an underscore, and letters, digits and underscores behind it. -/
def IsWordText (cs : List Char) : Prop :=
  ∃ c tail, cs = c :: tail ∧ isWordStart c = true ∧ ∀ d ∈ tail, isWordPart d = true

def IsLexeme (cs : List Char) : Prop :=
  IsNumber cs ∨ IsWordText cs ∨ ∃ c kind, cs = [c] ∧ signKind? c = some kind

/-- What stands behind a lexeme can be exchanged: the second text starts with the character of the
first, or with one that no lexeme goes on with. -/
def EndsAlike (rest rest' : List Char) : Prop :=
  ∀ c ∈ rest'.head?, c ∈ rest.head? ∨ isWordPart c = false ∧ c.isDigit = false ∧ c ≠ '.'

theorem endsAlike_of_detached {rest rest' : List Char} (h : Detached rest') :
    EndsAlike rest rest' := fun c hc => .inr (h c hc)

theorem EndsAlike.append {rest rest' : List Char} (h : EndsAlike rest rest') (cs : List Char) :
    EndsAlike (cs ++ rest) (cs ++ rest') := by
  cases cs with
  | nil => exact h
  | cons c cs => exact fun d hd => .inl hd

theorem head?_dropWhile (p : Char → Bool) (cs : List Char) :
    ∀ c ∈ (cs.dropWhile p).head?, p c = false := by
  intro c hc
  have h := List.head?_dropWhile_not p cs
  rw [Option.mem_def.1 hc] at h
  exact h

theorem forall_mem_takeWhile (p : Char → Bool) (cs : List Char) :
    ∀ c ∈ cs.takeWhile p, p c = true := List.all_eq_true.1 List.all_takeWhile

theorem EndsAlike.stops {p : Char → Prop} {rest rest' : List Char} (h : EndsAlike rest rest')
    (hrest : ∀ c ∈ rest.head?, p c)
    (hp : ∀ c, isWordPart c = false → c.isDigit = false → c ≠ '.' → p c) :
    ∀ c ∈ rest'.head?, p c := by
  intro c hc
  rcases h c hc with hsame | ⟨hpart, hdigit, hpoint⟩
  · exact hrest c hsame
  · exact hp c hpart hdigit hpoint

namespace Lexer

variable {c : Char} {cs rest rest' whole fraction : List Char} {kind : TokenKind}

theorem exists_digits (cs : List Char) :
    (∃ whole rest, cs = whole ++ rest ∧ AllDigits whole ∧
      ∀ c ∈ rest.head?, c.isDigit = false ∧ c ≠ '.') ∨
    ∃ whole fraction rest, cs = whole ++ '.' :: (fraction ++ rest) ∧ AllDigits whole ∧
      AllDigits fraction ∧ ∀ c ∈ rest.head?, c.isDigit = false := by
  have hcs := cs.takeWhile_append_dropWhile (p := Char.isDigit)
  have hdigits := forall_mem_takeWhile Char.isDigit cs
  have hstop := head?_dropWhile Char.isDigit cs
  by_cases hpoint : '.' ∈ (cs.dropWhile Char.isDigit).head?
  · obtain ⟨tail, htail⟩ := List.head?_eq_some_iff.1 hpoint
    right
    refine ⟨_, tail.takeWhile Char.isDigit, tail.dropWhile Char.isDigit, ?_, hdigits,
      forall_mem_takeWhile _ _, head?_dropWhile _ _⟩
    rw [List.takeWhile_append_dropWhile, ← htail, hcs]
  · left
    refine ⟨_, _, hcs.symm, hdigits, fun c hc => ⟨hstop c hc, ?_⟩⟩
    rintro rfl
    exact hpoint hc

theorem splitNumeral_exchange (h : splitNumeral (cs ++ rest) = (cs, rest))
    (hr : EndsAlike rest rest') : splitNumeral (cs ++ rest') = (cs, rest') := by
  rcases exists_digits (cs ++ rest) with
    ⟨whole, after, heq, hw, hstop⟩ | ⟨whole, fraction, after, heq, hw, hf, hstop⟩
  · rw [heq, splitNumeral_digits hw hstop] at h
    obtain ⟨rfl, rfl⟩ := Prod.mk.inj h
    exact splitNumeral_digits hw (hr.stops hstop fun c _ hdigit hpoint => ⟨hdigit, hpoint⟩)
  · rw [heq, splitNumeral_point hw hf hstop] at h
    obtain ⟨rfl, rfl⟩ := Prod.mk.inj h
    rw [List.append_assoc, List.cons_append]
    exact splitNumeral_point hw hf (hr.stops hstop fun c _ hdigit _ => hdigit)

/-- What follows a lexeme can be exchanged. -/
theorem lexeme?_exchange (h : lexeme? c (cs ++ rest) = some (kind, c :: cs, rest))
    (hr : EndsAlike rest rest') : lexeme? c (cs ++ rest') = some (kind, c :: cs, rest') := by
  simp only [lexeme?, ← List.cons_append] at h ⊢
  split at h
  · next hc =>
    rw [if_pos hc]
    split at h
    · cases h
    · next hpoint =>
      simp only [Option.some.injEq, Prod.mk.injEq] at h
      obtain ⟨rfl, hnumeral, hrest⟩ := h
      have hsplit := splitNumeral_exchange (Prod.ext hnumeral hrest) hr
      rw [hnumeral] at hpoint
      rw [hsplit, if_neg hpoint]
  · next hc =>
    rw [if_neg hc]
    split at h
    · next hstart =>
      simp only [Option.some.injEq, Prod.mk.injEq] at h
      obtain ⟨rfl, hword, hrest⟩ := h
      have hpart := forall_mem_takeWhile isWordPart (c :: cs ++ rest)
      have hstop := head?_dropWhile isWordPart (c :: cs ++ rest)
      rw [hword] at hpart
      rw [hrest] at hstop
      obtain ⟨htake, hdrop⟩ := span_detached hpart (hr.stops hstop fun c hpart _ _ => hpart)
      simp only [if_pos hstart, htake, hdrop, hword]
    · next hstart =>
      obtain ⟨sign, hsign, hsame⟩ := Option.map_eq_some_iff.1 h
      obtain ⟨rfl, rfl, -⟩ := by simpa using hsame
      simp [if_neg hstart, hsign]

theorem not_numeral_of_isWordStart (h : isWordStart c = true) :
    c.isDigit = false ∧ c ≠ '.' := by
  constructor
  · rw [← Bool.not_eq_true]
    intro hdigit
    have hall : (List.range' 48 10).all (fun n => !isWordStart (Char.ofNat n)) = true := by
      decide +kernel
    have hmem : c.toNat ∈ List.range' 48 10 := by
      simp only [Char.isDigit, Bool.and_eq_true, decide_eq_true_eq,
        UInt32.le_iff_toNat_le] at hdigit
      exact List.mem_range'_1.2 ⟨hdigit.1, Nat.lt_succ_of_le hdigit.2⟩
    have hnot := List.all_eq_true.1 hall _ hmem
    rw [Char.ofNat_toNat, h] at hnot
    cases hnot
  · rintro rfl
    exact absurd h (by decide +kernel)

theorem splitNumeral_ne_point {number : List Char} (hn : IsNumber number) (hp : number <+: cs) :
    (splitNumeral cs).1 ≠ ['.'] := by
  intro hpoint
  rcases exists_digits cs with
    ⟨whole, after, rfl, hw, hstop⟩ | ⟨whole, fraction, after, rfl, hw, hf, hstop⟩
  · rw [splitNumeral_digits hw hstop] at hpoint
    have hdigit := hw '.' (by simp [show whole = ['.'] from hpoint])
    exact absurd hdigit (by decide)
  · rw [splitNumeral_point hw hf hstop] at hpoint
    obtain ⟨rfl, rfl⟩ : whole = [] ∧ fraction = [] := by
      simpa [List.append_eq_cons_iff] using hpoint
    rw [List.nil_append, List.nil_append] at hp
    obtain ⟨⟨d, hd, hdigit⟩, hcount, hchars⟩ := hn
    -- behind the point stands no digit, and a number has no second point
    match number, hp, hd with
    | [a], hp, hd =>
      obtain ⟨rfl, -⟩ := List.cons_prefix_cons.1 hp
      rw [List.mem_singleton.1 hd] at hdigit
      exact absurd hdigit (by decide)
    | a :: b :: tail, hp, hd =>
      obtain ⟨rfl, htail⟩ := List.cons_prefix_cons.1 hp
      obtain ⟨later, rfl⟩ := htail
      obtain hb | rfl := hchars b (by simp)
      · rw [hstop b rfl] at hb
        cases hb
      · simp at hcount

/-- Where the lexer finds no lexeme, no lexeme is a front part of the text. -/
theorem not_isLexeme_of_lexeme? (h : lexeme? c cs = none) {lexeme : List Char}
    (hp : lexeme <+: c :: cs) : ¬IsLexeme lexeme := by
  simp only [lexeme?] at h
  rintro (hnumber | ⟨d, tail, rfl, hstart, -⟩ | ⟨d, kind, rfl, hsign⟩)
  · have hc : (c.isDigit || c = '.') = true := by
      obtain ⟨⟨d, hd, -⟩, -, hchars⟩ := hnumber
      cases lexeme with
      | nil => cases hd
      | cons d tail =>
        obtain ⟨rfl, -⟩ := List.cons_prefix_cons.1 hp
        simpa using hchars d (by simp)
    rw [if_pos hc] at h
    split at h
    · next hpoint => exact splitNumeral_ne_point hnumber hp hpoint
    · cases h
  · obtain ⟨rfl, -⟩ := List.cons_prefix_cons.1 hp
    obtain ⟨hdigit, hpoint⟩ := not_numeral_of_isWordStart hstart
    rw [if_neg (by simp [hdigit, hpoint]), if_pos hstart] at h
    cases h
  · obtain ⟨rfl, -⟩ := List.cons_prefix_cons.1 hp
    obtain ⟨hpart, hdigit, hpoint⟩ := apart_of_mem_marks (mem_marks_of_signKind? hsign)
    rw [if_neg (by simp [hdigit, hpoint]), hsign] at h
    split at h
    · cases h
    · cases h

end Lexer

end Calculator
