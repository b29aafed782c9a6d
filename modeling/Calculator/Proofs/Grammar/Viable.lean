import Calculator.Proofs.Grammar.Limit
import Calculator.Proofs.Lexing

/-!
# Completing what has been read

Whatever tokens the parser has read without an error, they can be completed to an expression: an
operand is added where one is missing, and every open bracket is closed. So the tokens in front of
the first error are the beginning of an expression; and no larger pool takes the error away.
-/

namespace Calculator

/-- The characters that are missing before the operand is complete. -/
def Phase.missing : Phase → List Char
  | .operand => ['1']
  | .arguments .. => ['(', '1', ')']
  | .operator _ => []

namespace ParserState

def openings (stack : List Frame) : Nat := stack.countP (·.strength = 0)

/-- The characters that complete what has been read, behind a blank. -/
def completion (s : ParserState) : List Char :=
  ' ' :: (s.phase.missing ++ List.replicate (openings s.stack) ')')

variable {s s' : ParserState} {stack : List Frame} {ts us vs ws : List Token} {t : Token}
  {c : Category} {e : Expr} {err : MathError} {ending : Except MathError Token} {m : Int}

theorem exists_build (frame : Frame) (e : Expr) :
    ∃ e' pool', build (.fresh 2) e frame = .ok (e', pool') := by
  cases frame with
  | sum | product | power => exact ⟨_, _, build_joined (by decide)⟩
  | negation => exact ⟨_, _, build_negation (by decide)⟩
  | group | call => exact ⟨_, _, rfl⟩

theorem exists_derives_closed (hh : Held stack ts) (hd : Derives c us e)
    (hbelow : c.strength ≤ 2 → HeldBelow c.strength stack)
    (hw : ws.map Token.kind = List.replicate (openings stack) .rightParen) :
    ∃ e', Derives .expression (ts ++ us ++ ws) e' := by
  induction stack generalizing c ts us ws e with
  | nil =>
    cases hh
    obtain rfl : ws = [] := List.map_eq_nil_iff.1 hw
    exact ⟨e, by simpa using hd.toExpression⟩
  | cons frame stack ih =>
    by_cases hs : frame.strength = 0
    · rw [openings, List.countP_cons_of_pos (by simpa using hs), List.replicate_succ] at hw
      obtain ⟨closing, ws, rfl, hclosing, hws⟩ := List.map_eq_cons_iff.1 hw
      -- what is left on the stack cannot close a bracketed operand
      have bracketed {ts' : List Token} (vs : List Token) {e' : Expr} (hh' : Held stack ts')
          (hd' : Derives .primary (vs ++ us ++ [closing]) e') :
          ∃ e'', Derives .expression (ts' ++ vs ++ us ++ closing :: ws) e'' := by
        simpa using ih hh' hd' (fun hle => absurd hle (by decide)) hws
      cases hh with
      | @group opening ts' _ hh' ho =>
        exact bracketed [opening] hh' (.group ho hd.toExpression hclosing)
      | @call f name opening ts' _ hh' hn ho =>
        exact bracketed [name, opening] hh' (.call hn ho hd.toExpression hclosing)
      | sum | product | power | negation => simp [Frame.strength] at hs
    · obtain ⟨e', pool', hb⟩ := exists_build frame e
      obtain ⟨c', ts', us', hh', hd', -, hbelow', heq⟩ :=
        derives_of_build hh hd hbelow (Nat.pos_of_ne_zero hs) hb
      rw [openings, List.countP_cons_of_neg (by simpa using hs)] at hw
      rw [heq]
      exact ih hh' hd' hbelow' hw

theorem run_closings (n : Nat) (cursor : Cursor) :
    ∃ us fin, Lexer.run (List.replicate n ')') cursor = ⟨us, .ok fin⟩ ∧
      us.map Token.kind = List.replicate n .rightParen := by
  induction n generalizing cursor with
  | zero => exact ⟨[], .finish cursor, Lexer.run_nil cursor, rfl⟩
  | succ n ih =>
    obtain ⟨us, fin, hrun, hkinds⟩ := ih (cursor.past ')')
    obtain ⟨t, ht, hsign⟩ := Lexer.run_sign Lexer.rightParen (List.replicate n ')') cursor
    refine ⟨t :: us, fin, ?_, ?_⟩
    · rw [List.replicate_succ, hsign, hrun]
      rfl
    · rw [List.map_cons, ht, hkinds, List.replicate_succ]

theorem detached_closings (n : Nat) : Detached (List.replicate n ')') := by
  cases n with
  | zero => exact detached_nil
  | succ n => exact detached_mark (by decide) _

theorem run_operand (n : Nat) (cursor : Cursor) :
    ∃ t us fin, Lexer.run ('1' :: List.replicate n ')') cursor = ⟨t :: us, .ok fin⟩ ∧
      t.kind = .number ∧ us.map Token.kind = List.replicate n .rightParen := by
  have hone : IsNumeral ['1'] := ⟨['1'], [], by decide, by simp [AllDigits], nofun, rfl⟩
  obtain ⟨t, ht, -, hrun⟩ := Lexer.run_numeral hone (detached_closings n) cursor
  obtain ⟨us, fin, hclosings, hkinds⟩ := run_closings n (cursor.pastAll ['1'])
  refine ⟨t, us, fin, ?_, ht, hkinds⟩
  rw [← List.singleton_append, hrun, hclosings]
  rfl

/-- Whatever has been read can be completed to an expression. -/
theorem exists_completion (h : s.Follows ts) (cursor : Cursor) :
    ∃ us fin e, Lexer.run s.completion cursor = ⟨us, .ok fin⟩ ∧
      Derives .expression (ts ++ us) e := by
  have free {k : Nat} (hle : 4 ≤ k) : k ≤ 2 → HeldBelow k s.stack := by omega
  rw [completion, Lexer.run_separator rfl]
  unfold Follows at h
  split at h
  · next hp =>
    obtain ⟨t, us, fin, hrun, ht, hkinds⟩ := run_operand (openings s.stack) (cursor.past ' ')
    obtain ⟨e, hd⟩ := exists_derives_closed h (.number ht) (free (by decide)) hkinds
    exact ⟨t :: us, fin, e, by rw [hp]; exact hrun, by simpa using hd⟩
  · next f name hp =>
    obtain ⟨vs, rfl, hname, hh⟩ := h
    obtain ⟨opening, ho, hopening⟩ :=
      Lexer.run_sign Lexer.leftParen ('1' :: List.replicate (openings s.stack + 1) ')')
        (cursor.past ' ')
    obtain ⟨t, us, fin, hrun, ht, hkinds⟩ :=
      run_operand (openings s.stack + 1) ((cursor.past ' ').past '(')
    obtain ⟨closing, us, rfl, hclosing, hus⟩ := List.map_eq_cons_iff.1 hkinds
    have hcall : Derives .primary _ _ :=
      .call hname ho (Derives.number ht).toExpression hclosing
    obtain ⟨e, hd⟩ := exists_derives_closed hh hcall (free (by decide)) hus
    refine ⟨opening :: t :: closing :: us, fin, e, ?_, by simpa using hd⟩
    rw [hp]
    change Lexer.run ('(' :: '1' :: List.replicate (openings s.stack + 1) ')') _ = _
    rw [hopening, hrun]
    rfl
  · next tree hp =>
    obtain ⟨vs, us, rfl, hh, hd⟩ := h
    obtain ⟨ws, fin, hrun, hkinds⟩ := run_closings (openings s.stack) (cursor.past ' ')
    obtain ⟨e, hd⟩ := exists_derives_closed hh hd (free (by decide)) hkinds
    exact ⟨ws, fin, e, by rw [hp]; exact hrun, hd⟩

/-- A run that fails has read some tokens and fails at the next one, whatever follows it, or it has
read all tokens and fails at their end. -/
theorem exists_of_run_error (h : s.Follows ts) (hr : s.run ending us = .error err) :
    (∃ (vs : List Token) (t : Token) (ws : List Token) (s' : ParserState), us = vs ++ t :: ws ∧
      s'.Follows (ts ++ vs) ∧ s'.step t = .error err ∧
      ∀ ending' ws', s.run ending' (vs ++ t :: ws') = .error err) ∨
    ∃ s' : ParserState, s'.Follows (ts ++ us) ∧
      (ending = .error err ∨ ∃ fin, ending = .ok fin ∧ s'.conclude fin = .error err) := by
  induction us generalizing s ts with
  | nil =>
    rw [List.append_nil]
    refine .inr ⟨s, h, ?_⟩
    cases ending with
    | ok fin => exact .inr ⟨fin, rfl, hr⟩
    | error e =>
      cases hr
      exact .inl rfl
  | cons u us ih =>
    cases hs : s.step u with
    | error e =>
      have hfails (ending' : Except MathError Token) (ws' : List Token) :
          s.run ending' (u :: ws') = .error e := by
        simp only [run, hs]
        rfl
      obtain rfl : e = err := by simpa using (hfails ending us).symm.trans hr
      exact .inl ⟨[], u, us, s, rfl, by simpa using h, hs, hfails⟩
    | ok s₁ =>
      rw [run_cons hs] at hr
      rcases ih (follows_step h hs) hr with ⟨vs, t, ws, s', rfl, hf, ht, hfails⟩ | ⟨s', hf, hend⟩
      · refine .inl ⟨u :: vs, t, ws, s', rfl, by simpa using hf, ht, fun ending' ws' => ?_⟩
        rw [List.cons_append, run_cons hs, hfails]
      · exact .inr ⟨s', by simpa using hf, hend⟩

theorem not_derives_of_run {fin : Token} (h : (initial m).run (.ok fin) us = .error err)
    (hfree : ¬err.IsNodeLimit) : ¬Derives .expression us e := by
  intro hd
  have hroom : (e.size : Int) ≤ m + (e.size + m.natAbs : Nat) := by omega
  rcases (extends_run (k := e.size + m.natAbs) (initial m) (.ok fin) us).eq_or with
    ⟨err', herr, hlimit⟩ | heq
  · rw [h] at herr
    cases herr
    exact hfree hlimit
  · have hok : ((initial m).widened (e.size + m.natAbs)).run (.ok fin) us = _ :=
      run_of_derives hd hroom
    rw [heq, h] at hok
    cases hok

end ParserState

end Calculator
