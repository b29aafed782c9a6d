import Calculator.Proofs.Lexing.Lexeme

/-!
# Where tokens stand

`Scans cursor cs ts rest` says that the characters `cs`, which stand at `cursor` in front of `rest`,
are the lexemes of the tokens `ts` with blanks in front of each. Such a stretch of a text can be cut
out, moved and put in front of something else, and it is read as the same lexemes again.
-/

namespace Calculator

/-- The tokens stand one behind the other. -/
def InOrder (ts : List Token) : Prop :=
  ts.Pairwise (fun t u => t.span.last < u.span.first) ∧ ∀ t ∈ ts, t.span.first ≤ t.span.last

def covering (ts : List Token) : Option Span :=
  match ts.head?, ts.getLast? with
  | some first, some last => some { first.span with last := last.span.last }
  | _, _ => none

def Token.lexeme (t : Token) : TokenKind × String := (t.kind, t.text)

namespace Lexer

/-- The characters are a lexeme in front of `rest`. -/
def IsRead (lexeme : List Char) (kind : TokenKind) (rest : List Char) : Prop :=
  ∃ c cs, lexeme = c :: cs ∧ isSeparator c = false ∧
    lexeme? c (cs ++ rest) = some (kind, lexeme, rest)

/-- The characters at `cursor` in front of `rest` are the tokens with blanks in front of each. -/
inductive Scans : Cursor → List Char → List Token → List Char → Prop where
  | nil {cursor : Cursor} {rest : List Char} : Scans cursor [] [] rest
  | cons {cursor : Cursor} {blanks lexeme cs rest : List Char} {kind : TokenKind} {ts : List Token}
    (hb : ∀ c ∈ blanks, isSeparator c = true) (hl : IsRead lexeme kind (cs ++ rest))
    (h : Scans (cursor.pastAll (blanks ++ lexeme)) cs ts rest) :
    Scans cursor (blanks ++ (lexeme ++ cs))
      (⟨kind, String.ofList lexeme, .atCursor (cursor.pastAll blanks) lexeme.length⟩ :: ts) rest

variable {cursor after : Cursor} {cs lexeme rest rest' : List Char} {kind : TokenKind}
  {t : Token} {ts us vs : List Token}

theorem IsRead.ne_nil (h : IsRead lexeme kind rest) : lexeme ≠ [] := by
  obtain ⟨c, cs, rfl, -, -⟩ := h
  exact List.cons_ne_nil c cs

theorem IsRead.exchange (h : IsRead lexeme kind rest) (hr : EndsAlike rest rest') :
    IsRead lexeme kind rest' := by
  obtain ⟨c, cs, rfl, hc, hl⟩ := h
  exact ⟨c, cs, rfl, hc, lexeme?_exchange hl hr⟩

theorem ne_finish_of_lexeme? {c : Char} (h : lexeme? c cs = some (kind, lexeme, rest)) :
    kind ≠ .finish := by
  rcases lexeme?_cases h with ⟨-, rfl, -⟩ | ⟨-, -, rfl, -⟩ | ⟨-, -, hsign, -⟩
  · nofun
  · exact wordKind_ne (by nofun) (by nofun) (by nofun) _
  · unfold signKind? at hsign
    split at hsign <;> cases hsign <;> nofun

theorem IsRead.kind_ne_finish (h : IsRead lexeme kind rest) : kind ≠ .finish := by
  obtain ⟨c, cs, rfl, -, hl⟩ := h
  exact ne_finish_of_lexeme? hl

theorem isRead_numeral {cs : List Char} (h : IsNumeral cs) (hr : Detached rest) :
    IsRead cs .number rest := by
  obtain ⟨c, tail, rfl, hc⟩ := h.exists_cons
  exact ⟨c, tail, rfl, ne_separator_of_isDigit hc, lexeme?_numeral h hr⟩

theorem run_blanks {blanks : List Char} (hb : ∀ c ∈ blanks, isSeparator c = true)
    (cs : List Char) (cursor : Cursor) :
    run (blanks ++ cs) cursor = run cs (cursor.pastAll blanks) := by
  induction blanks generalizing cursor with
  | nil => rfl
  | cons c blanks ih =>
    rw [List.cons_append, run_separator (hb c List.mem_cons_self), Cursor.pastAll_cons]
    exact ih (fun d hd => hb d (List.mem_cons_of_mem c hd)) _

theorem run_isRead (h : IsRead lexeme kind rest) (cursor : Cursor) :
    run (lexeme ++ rest) cursor = (run rest (cursor.pastAll lexeme)).behind
      [⟨kind, String.ofList lexeme, .atCursor cursor lexeme.length⟩] := by
  have hk := h.kind_ne_finish
  obtain ⟨c, cs, rfl, hc, hl⟩ := h
  exact run_lexeme hc hl hk

theorem tokenize_numeral {cs : List Char} (h : IsNumeral cs) :
    tokenize (String.ofList cs) = ⟨[⟨.number, String.ofList cs, .atCursor .start cs.length⟩],
      .ok (.finish (Cursor.start.pastAll cs))⟩ := by
  have hrun := run_isRead (isRead_numeral h detached_nil) .start
  rw [List.append_nil, run_nil] at hrun
  rw [tokenize, String.toList_ofList, hrun]
  rfl

theorem exists_of_next (h : next cs cursor = .ok (t, after, rest)) (ht : t.kind ≠ .finish) :
    ∃ blanks lexeme, cs = blanks ++ (lexeme ++ rest) ∧ (∀ c ∈ blanks, isSeparator c = true) ∧
      IsRead lexeme t.kind rest ∧
      t = ⟨t.kind, String.ofList lexeme, .atCursor (cursor.pastAll blanks) lexeme.length⟩ ∧
      after = cursor.pastAll (blanks ++ lexeme) := by
  unfold next at h
  have hcs := cs.takeWhile_append_dropWhile (p := isSeparator)
  have hstop := head?_dropWhile isSeparator cs
  split at h
  · cases h
    exact absurd rfl ht
  · next c tail hdrop =>
    rw [hdrop] at hcs hstop
    split at h
    · cases h
    · next kind lexeme rest' hl =>
      have happend := lexeme?_append hl
      obtain ⟨d, lexeme, rfl⟩ := List.exists_cons_of_ne_nil (lexeme?_ne_nil hl)
      obtain ⟨rfl, rfl⟩ := List.cons.inj happend
      cases h
      refine ⟨_, d :: lexeme, hcs.symm, forall_mem_takeWhile _ _, ?_, rfl, ?_⟩
      · exact ⟨d, lexeme, rfl, hstop d rfl, hl⟩
      · rw [Cursor.pastAll_append]

theorem Scans.run (h : Scans cursor cs ts rest) :
    run (cs ++ rest) cursor = (run rest (cursor.pastAll cs)).behind ts := by
  induction h with
  | nil => rfl
  | @cons cursor blanks lexeme cs rest kind ts hb hl _ ih =>
    rw [List.append_assoc, run_blanks hb, List.append_assoc, run_isRead hl]
    rw [Cursor.pastAll_append] at ih
    rw [ih, TokenList.behind_behind, Cursor.pastAll_append, Cursor.pastAll_append]
    rfl

/-- What follows a stretch of a text is read by itself. -/
theorem Scans.run_rest (h : Scans cursor cs us rest)
    (htokens : (Lexer.run (cs ++ rest) cursor).tokens = us ++ vs) :
    Lexer.run rest (cursor.pastAll cs) = ⟨vs, (Lexer.run (cs ++ rest) cursor).ending⟩ := by
  rw [h.run] at htokens ⊢
  rw [← List.append_cancel_left htokens]
  rfl

/-- The tokens that are read first are a stretch of the text. -/
theorem exists_scans (h : (run cs cursor).tokens = us ++ vs) :
    ∃ front rest, cs = front ++ rest ∧ Scans cursor front us rest := by
  induction us generalizing cs cursor with
  | nil => exact ⟨[], cs, rfl, .nil⟩
  | cons u us ih =>
    rw [run_eq] at h
    split at h
    · cases h
    · next t after rest hnext =>
      split at h
      · cases h
      · next ht =>
        obtain ⟨rfl, htokens⟩ := List.cons.inj h
        obtain ⟨blanks, lexeme, rfl, hb, hl, heq, rfl⟩ := exists_of_next hnext ht
        obtain ⟨front, rest', rfl, hscan⟩ := ih htokens
        refine ⟨blanks ++ (lexeme ++ front), rest', by simp, ?_⟩
        rw [heq]
        exact .cons hb hl hscan

/-- A stretch can be put in front of something else. -/
theorem Scans.exchange (h : Scans cursor cs ts rest) (hr : EndsAlike rest rest') :
    Scans cursor cs ts rest' := by
  induction h with
  | nil => exact .nil
  | cons hb hl _ ih => exact .cons hb (hl.exchange (hr.append _)) (ih hr)

theorem Scans.move (h : Scans cursor cs ts rest) (cursor' : Cursor) :
    ∃ us, Scans cursor' cs us rest ∧ us.map Token.lexeme = ts.map Token.lexeme := by
  induction h generalizing cursor' with
  | nil => exact ⟨[], .nil, rfl⟩
  | @cons _ blanks lexeme _ _ _ _ hb hl _ ih =>
    obtain ⟨us, hscan, hsame⟩ := ih (cursor'.pastAll (blanks ++ lexeme))
    refine ⟨_, .cons hb hl hscan, ?_⟩
    rw [List.map_cons, List.map_cons, hsame]
    rfl

theorem Scans.split (h : Scans cursor cs (us ++ vs) rest) :
    ∃ front back, cs = front ++ back ∧ Scans cursor front us (back ++ rest) ∧
      Scans (cursor.pastAll front) back vs rest := by
  induction us generalizing cs cursor with
  | nil => exact ⟨[], cs, rfl, .nil, h⟩
  | cons u us ih =>
    cases h with
    | @cons _ blanks lexeme _ _ _ _ hb hl h =>
      obtain ⟨front, back, rfl, hfront, hback⟩ := ih h
      refine ⟨blanks ++ (lexeme ++ front), back, by simp, .cons hb ?_ hfront, ?_⟩
      · rwa [← List.append_assoc]
      · rwa [← List.append_assoc, Cursor.pastAll_append]

theorem Scans.trim (h : Scans cursor cs (t :: ts) rest) :
    ∃ blanks body, cs = blanks ++ body ∧ (∀ c ∈ blanks, isSeparator c = true) ∧ body ≠ [] ∧
      Scans (cursor.pastAll blanks) body (t :: ts) rest ∧
      ∃ length, t.span = .atCursor (cursor.pastAll blanks) length := by
  cases h with
  | @cons _ blanks lexeme cs _ kind _ hb hl h =>
    refine ⟨blanks, lexeme ++ cs, rfl, hb, by simp [hl.ne_nil], ?_, _, rfl⟩
    rw [Cursor.pastAll_append] at h
    exact @Scans.cons (cursor.pastAll blanks) [] lexeme cs rest kind ts nofun hl h

theorem Scans.bounds (h : Scans cursor cs ts rest) :
    ∀ t ∈ ts, (cursor.offset : Int) ≤ t.span.first ∧ t.span.first ≤ t.span.last ∧
      t.span.last < cursor.offset + cs.length := by
  induction h with
  | nil => nofun
  | @cons _ blanks lexeme _ _ _ _ hb hl _ ih =>
    have hpos := List.length_pos_iff.2 hl.ne_nil
    intro t ht
    simp only [List.length_append]
    rcases List.mem_cons.1 ht with rfl | hmem
    · simp only [Span.atCursor, Cursor.offset_pastAll]
      omega
    · have hbounds := ih t hmem
      simp only [Cursor.offset_pastAll, List.length_append] at hbounds
      omega

theorem Scans.inOrder (h : Scans cursor cs ts rest) : InOrder ts := by
  refine ⟨?_, fun t ht => (h.bounds t ht).2.1⟩
  induction h with
  | nil => exact .nil
  | @cons _ blanks lexeme _ _ _ _ hb hl h ih =>
    refine .cons (fun t ht => ?_) ih
    have hpos := List.length_pos_iff.2 hl.ne_nil
    have hbounds := h.bounds t ht
    simp only [Cursor.offset_pastAll, List.length_append, Span.atCursor] at hbounds ⊢
    omega

theorem Scans.last (h : Scans cursor cs ts rest) :
    ∀ t ∈ ts.getLast?, t.span.last + 1 = cursor.offset + cs.length := by
  induction h with
  | nil => nofun
  | @cons _ blanks lexeme cs _ _ ts hb hl h ih =>
    have hpos := List.length_pos_iff.2 hl.ne_nil
    intro t ht
    cases h with
    | nil =>
      obtain rfl : _ = t := by simpa using ht
      simp only [Span.atCursor, Cursor.offset_pastAll, List.length_append, List.length_nil]
      omega
    | cons hb' hl' h' =>
      rw [List.getLast?_cons_cons] at ht
      have hlast := ih t ht
      simp only [Cursor.offset_pastAll, List.length_append] at hlast ⊢
      omega

/-- A stretch that starts with its first token is covered by its tokens. -/
theorem Scans.covering (h : Scans cursor cs (t :: ts) rest) {length : Nat}
    (ht : t.span = .atCursor cursor length) :
    covering (t :: ts) = some (.atCursor cursor cs.length) := by
  have hu := List.getLast?_eq_some_getLast (List.cons_ne_nil t ts)
  generalize (t :: ts).getLast _ = u at hu
  have hlast := h.last u hu
  have hbounds := h.bounds u (List.mem_of_getLast? hu)
  simp only [Calculator.covering, List.head?_cons, hu, ht, Span.atCursor, Option.some.injEq,
    Span.mk.injEq, true_and, and_true]
  omega

end Lexer

end Calculator
