import Calculator.Proofs.Lexing.Scan

/-!
# Tokens and the text

The tokens of a text, what lies between them and what ends them; the part of a text that a span
marks, and what its tokens are when it is read by itself.
-/

namespace Calculator

/-- The line of an offset: the first one, and one more for every line feed before it. -/
def lineAt (text : String) (offset : Nat) : Nat := (text.toList.take offset).count '\n' + 1

/-- The column of an offset: its distance from the line feed before it, or from the place in front
of the text. -/
def columnAt (text : String) (offset : Nat) : Nat :=
  ((text.toList.take offset).reverse.takeWhile (· != '\n')).length + 1

theorem Cursor.pastAll_start (cs : List Char) :
    Cursor.start.pastAll cs =
      ⟨cs.length, cs.count '\n' + 1, (cs.reverse.takeWhile (· != '\n')).length + 1⟩ := by
  induction cs using List.reverseRecOn with
  | nil => rfl
  | append_singleton cs c ih =>
    rw [pastAll_append, ih, pastAll_cons, pastAll_nil, past]
    by_cases hc : c = '\n'
    · simp [hc]
    · simp [hc]

/-- The span lies in the text and knows its line and column there. -/
structure Span.LiesIn (s : Span) (text : String) : Prop where
  nonneg : 0 ≤ s.first
  ordered : s.first ≤ s.last
  bounded : s.last < text.length
  line : s.line = lineAt text s.first.toNat
  column : s.column = columnAt text s.first.toNat

/-- The part of a text that a span marks. -/
def Span.cut (s : Span) (text : String) : String :=
  String.ofList ((text.toList.take (s.last + 1).toNat).drop s.first.toNat)

variable {text : String} {front body rest : List Char}

theorem Span.cut_atCursor (htext : text.toList = front ++ (body ++ rest)) (hbody : body ≠ []) :
    (Span.atCursor (Cursor.start.pastAll front) body.length).cut text = String.ofList body := by
  have hpos := List.length_pos_iff.2 hbody
  have hlast : ((front.length + (body.length - 1) : Nat) + 1 : Int).toNat =
      (front ++ body).length := by
    rw [List.length_append]
    omega
  simp only [cut, atCursor, Cursor.offset_pastAll, Cursor.start, Nat.zero_add, hlast,
    Int.toNat_natCast, htext]
  rw [← List.append_assoc, List.take_left, List.drop_left]

theorem Span.liesIn_atCursor (htext : text.toList = front ++ (body ++ rest)) (hbody : body ≠ []) :
    (Span.atCursor (Cursor.start.pastAll front) body.length).LiesIn text := by
  have hpos := List.length_pos_iff.2 hbody
  have hlength := congrArg List.length htext
  have hfront : text.toList.take front.length = front := by rw [htext, List.take_left]
  simp only [String.length_toList, List.length_append] at hlength
  constructor <;> simp only [atCursor, Cursor.pastAll_start, Int.toNat_natCast]
  · omega
  · omega
  · omega
  · rw [lineAt, hfront]
  · rw [columnAt, hfront]

/-- The part of a text that some of its tokens cover has the same tokens when it is read by
itself. -/
theorem tokenize_cut {before ts later : List Token} {t : Token}
    (h : (tokenize text).tokens = before ++ (t :: ts) ++ later) :
    ∃ s, covering (t :: ts) = some s ∧ s.LiesIn text ∧
      ∃ us fin, tokenize (s.cut text) = ⟨us, .ok fin⟩ ∧
        us.map Token.lexeme = (t :: ts).map Token.lexeme := by
  obtain ⟨stretch, rest, htext, hstretch⟩ := Lexer.exists_scans h
  obtain ⟨front, back, rfl, -, hback⟩ := hstretch.split
  obtain ⟨blanks, body, rfl, -, hbody, hscan, length, ht⟩ := hback.trim
  rw [← Cursor.pastAll_append] at hscan ht
  have hplace : text.toList = (front ++ blanks) ++ (body ++ rest) := by simp [htext]
  have hends : EndsAlike rest [] := nofun
  obtain ⟨us, hus, hsame⟩ := (hscan.exchange hends).move .start
  refine ⟨_, hscan.covering ht, Span.liesIn_atCursor hplace hbody, us,
    .finish (Cursor.start.pastAll body), ?_, hsame⟩
  have hrun := hus.run
  rw [List.append_nil, Lexer.run_nil] at hrun
  rw [Span.cut_atCursor hplace hbody, tokenize, String.toList_ofList, hrun]
  simp [TokenList.behind]

def TokenList.all (l : TokenList) : List Token :=
  match l.ending with
  | .ok fin => l.tokens ++ [fin]
  | .error _ => l.tokens

theorem Lexer.Scans.kind_ne_finish {cursor : Cursor} {cs : List Char} {ts : List Token}
    (h : Scans cursor cs ts rest) : ∀ t ∈ ts, t.kind ≠ .finish := by
  induction h with
  | nil => nofun
  | cons _ hl _ ih => exact List.forall_mem_cons.2 ⟨hl.kind_ne_finish, ih⟩

/-- Behind the last token stand blanks, and then either nothing or a character at which no lexeme
starts. -/
theorem exists_scans_ending (text : String) :
    ∃ front blanks rest, text.toList = front ++ (blanks ++ rest) ∧
      Lexer.Scans .start front (tokenize text).tokens (blanks ++ rest) ∧
      (∀ c ∈ blanks, isSeparator c = true) ∧
      ((rest = [] ∧
          (tokenize text).ending = .ok (.finish (Cursor.start.pastAll (front ++ blanks)))) ∨
        ∃ c cs, rest = c :: cs ∧ isSeparator c = false ∧ Lexer.lexeme? c cs = none ∧
          (tokenize text).ending = .error (.of (.unexpectedCharacter c)
            (some (.atCursor (Cursor.start.pastAll (front ++ blanks)) 1)))) := by
  have htokens : (Lexer.run text.toList .start).tokens = (tokenize text).tokens ++ [] :=
    (List.append_nil _).symm
  obtain ⟨front, rest, htext, hscan⟩ := Lexer.exists_scans htokens
  rw [htext] at htokens
  have hending := hscan.run_rest htokens
  rw [← htext] at hending
  refine ⟨front, rest.takeWhile isSeparator, rest.dropWhile isSeparator, ?_, ?_,
    forall_mem_takeWhile isSeparator rest, ?_⟩
  · rw [List.takeWhile_append_dropWhile, htext]
  · rwa [List.takeWhile_append_dropWhile]
  · have hstop := head?_dropWhile isSeparator rest
    rw [Lexer.run_eq, Lexer.next, ← Cursor.pastAll_append] at hending
    cases hrest : rest.dropWhile isSeparator with
    | nil =>
      simp only [hrest] at hending
      exact .inl ⟨rfl, (congrArg TokenList.ending hending).symm⟩
    | cons c cs =>
      simp only [hrest] at hending hstop
      cases hl : Lexer.lexeme? c cs with
      | none =>
        simp only [hl] at hending
        exact .inr ⟨c, cs, rfl, hstop c rfl, hl, (congrArg TokenList.ending hending).symm⟩
      | some r =>
        simp only [hl, if_neg (Lexer.ne_finish_of_lexeme? hl)] at hending
        cases congrArg TokenList.tokens hending

theorem exists_ending (text : String) :
    ∃ front rest, text.toList = front ++ rest ∧
      (∀ t ∈ (tokenize text).tokens, t.kind ≠ .finish ∧ t.span.first < front.length) ∧
      ((rest = [] ∧ (tokenize text).ending = .ok (.finish (Cursor.start.pastAll front))) ∨
        ∃ c cs, rest = c :: cs ∧ isSeparator c = false ∧ Lexer.lexeme? c cs = none ∧
          (tokenize text).ending = .error (.of (.unexpectedCharacter c)
            (some (.atCursor (Cursor.start.pastAll front) 1)))) := by
  obtain ⟨front, blanks, rest, htext, hscan, -, hending⟩ := exists_scans_ending text
  refine ⟨front ++ blanks, rest, by rw [htext, List.append_assoc], fun t ht => ?_, hending⟩
  have hbounds := hscan.bounds t ht
  refine ⟨hscan.kind_ne_finish t ht, ?_⟩
  simp only [Cursor.start, List.length_append] at hbounds ⊢
  omega

end Calculator
