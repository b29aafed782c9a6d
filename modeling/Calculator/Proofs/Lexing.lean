import Calculator.Proofs.Number.Numeral
import Calculator.Token.Lexer

/-!
# Reading lexemes back

Numerals, words and signs are read as one token in front of any rest that does not run on from them.
Signs ask nothing of the rest.
-/

namespace Calculator

/-- A lexeme in front of the rest ends where the rest starts. -/
def Detached (rest : List Char) : Prop :=
  ∀ c ∈ rest.head?, isWordPart c = false ∧ c.isDigit = false ∧ c ≠ '.'

theorem detached_nil : Detached [] := by simp [Detached]

def marks : List Char := [' ', '+', '-', '*', '/', '^', '!', '(', ')', ',']

theorem apart_of_mem_marks {c : Char} (h : c ∈ marks) :
    isWordPart c = false ∧ c.isDigit = false ∧ c ≠ '.' := by
  have hall : marks.all (fun c => !isWordPart c && !c.isDigit && c != '.') = true := by
    decide +kernel
  simpa [and_assoc] using List.all_eq_true.1 hall c h

theorem detached_mark {c : Char} (h : c ∈ marks) (cs : List Char) : Detached (c :: cs) := by
  simpa [Detached] using apart_of_mem_marks h

theorem span_detached {p : Char → Bool} {cs rest : List Char} (hcs : ∀ c ∈ cs, p c = true)
    (hrest : ∀ c ∈ rest.head?, p c = false) :
    (cs ++ rest).takeWhile p = cs ∧ (cs ++ rest).dropWhile p = rest := by
  rw [List.takeWhile_append_of_pos hcs, List.dropWhile_append_of_pos hcs]
  cases rest with
  | nil => simp
  | cons c rest =>
    have hc := hrest c rfl
    simp [hc]

def TokenList.behind (l : TokenList) (ts : List Token) : TokenList := ⟨ts ++ l.tokens, l.ending⟩

@[simp]
theorem TokenList.behind_behind (l : TokenList) (ts us : List Token) :
    (l.behind us).behind ts = l.behind (ts ++ us) := by
  simp [behind]

namespace Lexer

theorem run_eq (cs : List Char) (cursor : Cursor) :
    run cs cursor = match next cs cursor with
      | .error e => ⟨[], .error e⟩
      | .ok (t, after, rest) =>
        if t.kind = .finish then ⟨[], .ok t⟩
        else ⟨t :: (run rest after).tokens, (run rest after).ending⟩ := by
  rw [run]
  split
  · next e he => simp only [he]
  · next t after rest he =>
    simp only [he]
    split <;> rfl

theorem next_separator {c : Char} {cs : List Char} {cursor : Cursor} (hc : isSeparator c = true) :
    next (c :: cs) cursor = next cs (cursor.past c) := by
  simp only [next, List.takeWhile_cons, List.dropWhile_cons, hc, if_true, Cursor.pastAll_cons]

theorem next_lexeme {c : Char} {cs lexeme rest : List Char} {cursor : Cursor} {kind : TokenKind}
    (hc : isSeparator c = false) (h : lexeme? c cs = some (kind, lexeme, rest)) :
    next (c :: cs) cursor = .ok (⟨kind, String.ofList lexeme, .atCursor cursor lexeme.length⟩,
      cursor.pastAll lexeme, rest) := by
  simp only [next, List.takeWhile_cons, List.dropWhile_cons, hc, Bool.false_eq_true, if_false,
    Cursor.pastAll_nil, h]

/-- A separator in front of a text does not change its tokens but for their places. -/
theorem run_separator {c : Char} {cs : List Char} {cursor : Cursor} (hc : isSeparator c = true) :
    run (c :: cs) cursor = run cs (cursor.past c) := by
  rw [run_eq, run_eq, next_separator hc]

theorem run_nil (cursor : Cursor) : run [] cursor = ⟨[], .ok (.finish cursor)⟩ := by
  rw [run_eq]
  rfl

theorem run_lexeme {c : Char} {cs lexeme rest : List Char} {cursor : Cursor} {kind : TokenKind}
    (hc : isSeparator c = false) (h : lexeme? c cs = some (kind, lexeme, rest))
    (hk : kind ≠ .finish) :
    run (c :: cs) cursor = (run rest (cursor.pastAll lexeme)).behind
      [⟨kind, String.ofList lexeme, .atCursor cursor lexeme.length⟩] := by
  rw [run_eq, next_lexeme hc h]
  exact if_neg hk

theorem lexeme?_cases {c : Char} {cs lexeme rest : List Char} {kind : TokenKind}
    (h : lexeme? c cs = some (kind, lexeme, rest)) :
    ((c.isDigit || c = '.') = true ∧ kind = .number ∧ splitNumeral (c :: cs) = (lexeme, rest) ∧
      lexeme ≠ ['.']) ∨
    ((c.isDigit || c = '.') = false ∧ isWordStart c = true ∧
      kind = wordKind (String.ofList lexeme) ∧ lexeme = (c :: cs).takeWhile isWordPart ∧
      rest = (c :: cs).dropWhile isWordPart) ∨
    ((c.isDigit || c = '.') = false ∧ isWordStart c = false ∧ signKind? c = some kind ∧
      lexeme = [c] ∧ rest = cs) := by
  unfold lexeme? at h
  split at h
  · next hc =>
    dsimp only at h
    split at h
    · cases h
    · next hpoint =>
      cases h
      exact .inl ⟨hc, rfl, rfl, hpoint⟩
  · next hc =>
    rw [Bool.not_eq_true] at hc
    split at h
    · next hstart =>
      cases h
      exact .inr (.inl ⟨hc, hstart, rfl, rfl, rfl⟩)
    · next hstart =>
      obtain ⟨sign, hsign, hsame⟩ := Option.map_eq_some_iff.1 h
      cases hsame
      exact .inr (.inr ⟨hc, Bool.eq_false_iff.2 hstart, hsign, rfl, rfl⟩)

theorem mem_marks_of_signKind? {c : Char} {kind : TokenKind} (h : signKind? c = some kind) :
    c ∈ marks := by
  unfold signKind? at h
  split at h <;> simp_all [marks]

theorem isSeparator_of_signKind? {c : Char} {kind : TokenKind} (h : signKind? c = some kind) :
    isSeparator c = false := by
  unfold signKind? at h
  split at h <;> first | rfl | cases h

theorem run_sign {c : Char} {kind : TokenKind} (h : signKind? c = some kind) (rest : List Char)
    (cursor : Cursor) : ∃ t : Token, t.kind = kind ∧
      run (c :: rest) cursor = (run rest (cursor.past c)).behind [t] := by
  obtain ⟨hpart, hdigit, hpoint⟩ := apart_of_mem_marks (mem_marks_of_signKind? h)
  have hstart : isWordStart c = false := by
    rw [← Bool.not_eq_true]
    intro hstart
    rw [isWordPart_of_isWordStart hstart] at hpart
    cases hpart
  have hlexeme : lexeme? c rest = some (kind, [c], rest) := by
    rw [lexeme?, hdigit, hstart, h, decide_eq_false hpoint]
    rfl
  refine ⟨_, ?_, run_lexeme (isSeparator_of_signKind? h) hlexeme ?_⟩
  · rfl
  · unfold signKind? at h
    split at h <;> cases h <;> decide

theorem leftParen : signKind? '(' = some .leftParen := rfl

theorem rightParen : signKind? ')' = some .rightParen := rfl

theorem minus : signKind? '-' = some .minus := rfl

theorem bang : signKind? '!' = some .bang := rfl

theorem splitNumeral_digits {whole rest : List Char} (hw : AllDigits whole)
    (hr : ∀ c ∈ rest.head?, c.isDigit = false ∧ c ≠ '.') :
    splitNumeral (whole ++ rest) = (whole, rest) := by
  obtain ⟨htake, hdrop⟩ := span_detached hw fun c hc => (hr c hc).1
  rw [splitNumeral, htake, hdrop]
  split
  · exact absurd rfl (hr '.' rfl).2
  · rfl

theorem splitNumeral_point {whole fraction rest : List Char} (hw : AllDigits whole)
    (hf : AllDigits fraction) (hr : ∀ c ∈ rest.head?, c.isDigit = false) :
    splitNumeral (whole ++ '.' :: (fraction ++ rest)) = (whole ++ '.' :: fraction, rest) := by
  have hpoint : ∀ c ∈ ('.' :: (fraction ++ rest)).head?, c.isDigit = false := by simp
  obtain ⟨htake, hdrop⟩ := span_detached hw hpoint
  obtain ⟨htake', hdrop'⟩ := span_detached hf hr
  rw [splitNumeral, htake, hdrop]
  simp only [htake', hdrop']

theorem splitNumeral_numeral {cs rest : List Char} (h : IsNumeral cs) (hr : Detached rest) :
    splitNumeral (cs ++ rest) = (cs, rest) := by
  obtain ⟨whole, fraction, -, hw, hf, rfl⟩ := h
  unfold pointed
  split
  · exact splitNumeral_digits hw fun c hc => (hr c hc).2
  · rw [List.append_assoc, List.cons_append]
    exact splitNumeral_point hw hf fun c hc => (hr c hc).2.1

theorem ne_separator_of_isDigit {c : Char} (h : c.isDigit = true) : isSeparator c = false := by
  have hne (d : Char) (hd : d.isDigit = false) : c ≠ d := by
    rintro rfl
    exact absurd (h.symm.trans hd) (by decide)
  simp [isSeparator, hne ' ' (by decide), hne '\t' (by decide), hne '\r' (by decide),
    hne '\n' (by decide)]

theorem lexeme?_numeral {c : Char} {cs rest : List Char} (h : IsNumeral (c :: cs))
    (hr : Detached rest) : lexeme? c (cs ++ rest) = some (.number, c :: cs, rest) := by
  have hsplit := splitNumeral_numeral h hr
  obtain ⟨_, _, heq, hc⟩ := h.exists_cons
  obtain ⟨rfl, rfl⟩ := List.cons.inj heq
  have hpoint : c :: cs ≠ ['.'] := by
    intro heq
    exact ne_point_of_isDigit hc (List.cons.inj heq).1
  change splitNumeral (c :: (cs ++ rest)) = _ at hsplit
  simp only [lexeme?, hc, Bool.true_or, if_true, hsplit, if_neg hpoint]

theorem run_numeral {cs rest : List Char} (h : IsNumeral cs) (hr : Detached rest)
    (cursor : Cursor) :
    ∃ t : Token, t.kind = .number ∧ t.text = String.ofList cs ∧
      run (cs ++ rest) cursor = (run rest (cursor.pastAll cs)).behind [t] := by
  obtain ⟨c, tail, rfl, hc⟩ := h.exists_cons
  exact ⟨_, rfl, rfl, run_lexeme (ne_separator_of_isDigit hc) (lexeme?_numeral h hr) (by decide)⟩

def IsWord (cs : List Char) : Prop :=
  ∃ c tail, cs = c :: tail ∧ isWordStart c = true ∧ (c.isDigit || c = '.') = false ∧
    isSeparator c = false ∧ ∀ d ∈ cs, isWordPart d = true

theorem wordKind_ne {kind : TokenKind} (hf : ∀ f, kind ≠ .function f) (hc : kind ≠ .constant)
    (hi : kind ≠ .identifier) (word : String) : wordKind word ≠ kind := by
  unfold wordKind
  split
  · exact (hf _).symm
  · split
    · exact hc.symm
    · exact hi.symm

theorem run_word {cs rest : List Char} (h : IsWord cs) (hr : Detached rest) (cursor : Cursor) :
    ∃ t : Token, t.kind = wordKind (String.ofList cs) ∧ t.text = String.ofList cs ∧
      run (cs ++ rest) cursor = (run rest (cursor.pastAll cs)).behind [t] := by
  obtain ⟨c, tail, rfl, hstart, hdigit, hsep, hpart⟩ := h
  obtain ⟨htake, hdrop⟩ := span_detached hpart (fun d hd => (hr d hd).1)
  have hlexeme : lexeme? c (tail ++ rest) =
      some (wordKind (String.ofList (c :: tail)), c :: tail, rest) := by
    change (c :: (tail ++ rest)).takeWhile isWordPart = _ at htake
    change (c :: (tail ++ rest)).dropWhile isWordPart = _ at hdrop
    simp only [lexeme?, hdigit, Bool.false_eq_true, if_false, hstart, if_true, htake, hdrop]
  exact ⟨_, rfl, rfl, run_lexeme hsep hlexeme (wordKind_ne (by nofun) (by nofun) (by nofun) _)⟩

theorem isWord_name (f : FunctionKind) : IsWord f.name.toList := by
  have hall : ∀ d ∈ f.name.toList, isWordPart d = true := by
    rw [← List.all_eq_true]
    cases f <;> decide
  cases f <;> exact ⟨_, _, rfl, by decide, by decide, by decide, hall⟩

theorem wordKind_name (f : FunctionKind) : wordKind f.name = .function f := by
  rw [wordKind, FunctionKind.ofName?_name]

/-- The kinds of tokens that stand for a number by its name. -/
def IsNameKind (kind : TokenKind) : Prop := kind = .constant ∨ kind = .identifier

theorem isWord_of_lexeme? {c : Char} {cs lexeme rest : List Char} {kind : TokenKind}
    (hc : isSeparator c = false) (h : lexeme? c cs = some (kind, lexeme, rest))
    (hk : IsNameKind kind) : IsWord lexeme ∧ kind = wordKind (String.ofList lexeme) := by
  rcases lexeme?_cases h with ⟨-, rfl, -⟩ | ⟨hdigit, hstart, hword, rfl, -⟩ | ⟨-, -, hsign, -⟩
  · exact absurd hk (by simp [IsNameKind])
  · have hpart := isWordPart_of_isWordStart hstart
    refine ⟨⟨c, cs.takeWhile isWordPart, by simp [hpart], hstart, hdigit, hc, ?_⟩, hword⟩
    exact fun d hd => List.all_eq_true.1 List.all_takeWhile d hd
  · unfold signKind? at hsign
    split at hsign <;> cases hsign <;> exact absurd hk (by simp [IsNameKind])

theorem isWord_of_mem_run {cs : List Char} {cursor : Cursor} {t : Token}
    (h : t ∈ (run cs cursor).tokens) (hk : IsNameKind t.kind) :
    IsWord t.text.toList ∧ t.kind = wordKind t.text := by
  fun_induction run cs cursor with
  | case1 | case2 => cases h
  | case3 cs cursor u after rest hnext hfinish hlt more ih =>
    rcases List.mem_cons.1 h with rfl | hmem
    · unfold next at hnext
      split at hnext
      · cases hnext
        exact absurd rfl hfinish
      · next c tail hdrop =>
        split at hnext
        · cases hnext
        · next kind lexeme rest' hl =>
          cases hnext
          have hsep := List.head?_dropWhile_not isSeparator cs
          rw [hdrop] at hsep
          have hword := isWord_of_lexeme? hsep hl hk
          simpa using hword
    · exact ih hmem

end Lexer

/-- The text is read as one token, which is a name and has that text. -/
def IsName (name : String) : Prop :=
  ∃ t fin, tokenize name = ⟨[t], .ok fin⟩ ∧ Lexer.IsNameKind t.kind ∧ t.text = name

theorem isName_iff {name : String} :
    IsName name ↔ Lexer.IsWord name.toList ∧ Lexer.IsNameKind (wordKind name) := by
  constructor
  · rintro ⟨t, fin, ht, hk, rfl⟩
    have hmem : t ∈ (Lexer.run t.text.toList .start).tokens := by
      change t ∈ (tokenize t.text).tokens
      simp [ht]
    obtain ⟨hword, hkind⟩ := Lexer.isWord_of_mem_run hmem hk
    exact ⟨hword, hkind ▸ hk⟩
  · rintro ⟨hword, hk⟩
    obtain ⟨t, hkind, htext, hrun⟩ := Lexer.run_word hword detached_nil .start
    rw [String.ofList_toList] at hkind htext
    rw [List.append_nil, Lexer.run_nil] at hrun
    exact ⟨t, _, hrun, hkind ▸ hk, htext⟩

/-- The names in a text are read as names by themselves. -/
theorem isName_of_mem {text : String} {t : Token} (h : t ∈ (tokenize text).tokens)
    (hk : Lexer.IsNameKind t.kind) : IsName t.text := by
  obtain ⟨hword, hkind⟩ := Lexer.isWord_of_mem_run h hk
  exact isName_iff.2 ⟨hword, hkind ▸ hk⟩

end Calculator
