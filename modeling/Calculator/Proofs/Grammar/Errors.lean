import Calculator.Expr.Parser

/-!
# The errors of a parse

A parse fails with an error of the lexer or of the parser, and with no other.
-/

namespace Calculator

def FailsIn {α : Type} (stage : ErrorStage) (r : Except MathError α) : Prop :=
  ∀ e, r = .error e → e.stage = stage

namespace FailsIn

variable {α β : Type} {stage : ErrorStage}

theorem ok (a : α) : FailsIn stage (.ok a) := by
  intro e he
  cases he

theorem error {e : MathError} (h : e.stage = stage) :
    FailsIn stage (.error e : Except MathError α) := by
  intro e' he
  cases he
  exact h

theorem bind {r : Except MathError α} {f : α → Except MathError β} (h : FailsIn stage r)
    (hf : ∀ a, FailsIn stage (f a)) : FailsIn stage (r >>= f) := by
  cases r with
  | ok a => exact hf a
  | error e => exact .error (h e rfl)

end FailsIn

theorem Lexer.failsIn_run (cs : List Char) (cursor : Cursor) :
    FailsIn .lexing (run cs cursor).ending := by
  fun_induction run cs cursor with
  | case1 cs cursor e he =>
    unfold next at he
    split at he
    · cases he
    · split at he
      · cases he
        exact .error rfl
      · cases he
  | case2 => exact .ok _
  | case3 cs cursor t after rest hnext hfinish hlt more ih => exact ih

namespace ParserState

theorem failsIn_take (pool : NodePool) (span : Option Span) :
    FailsIn .parsing (pool.take span) := by
  unfold NodePool.take
  split
  · exact .error rfl
  · exact .ok _

theorem failsIn_settle (s : ParserState) : FailsIn .parsing s.settle := by
  unfold settle
  split
  · exact .ok _
  · exact (failsIn_take _ _).bind fun _ => .ok _
  · refine FailsIn.bind ?_ fun _ => .ok _
    unfold NodePool.reserve
    split
    · exact .error rfl
    · exact .ok _

theorem failsIn_build (pool : NodePool) (operand : Expr) (frame : Frame) :
    FailsIn .parsing (build pool operand frame) := by
  cases frame with
  | sum | product | power => exact (failsIn_take _ _).bind fun _ => .ok _
  | negation => exact (failsIn_take _ _).bind fun _ => (failsIn_take _ _).bind fun _ => .ok _
  | group | call => exact .ok _

theorem failsIn_unwind (strength : Nat) (stack : List Frame) (operand : Expr) (pool : NodePool) :
    FailsIn .parsing (unwind strength stack operand pool) := by
  induction stack generalizing operand pool with
  | nil => exact .ok _
  | cons frame stack ih =>
    rw [unwind]
    split
    · exact (failsIn_build _ _ _).bind fun r => ih r.1 r.2
    · exact .ok _

theorem failsIn_readClosing (s : ParserState) (tree : Expr) (t : Token) :
    FailsIn .parsing (s.readClosing tree t) := by
  refine (failsIn_unwind _ _ _ _).bind fun r => ?_
  dsimp only
  split
  · split
    · exact .ok _
    · exact .error rfl
  · split
    · exact .ok _
    · exact .error rfl
  · exact .error rfl

theorem failsIn_readOperator (s : ParserState) (tree : Expr) (t : Token) :
    FailsIn .parsing (s.readOperator tree t) := by
  unfold readOperator
  split
  · exact .ok _
  · exact .ok _
  · exact (failsIn_unwind _ _ _ _).bind fun _ => .ok _
  · exact (failsIn_unwind _ _ _ _).bind fun _ => .ok _
  · exact (failsIn_unwind _ _ _ _).bind fun _ => .ok _
  · exact (failsIn_unwind _ _ _ _).bind fun _ => .ok _
  · exact failsIn_readClosing s tree t

theorem failsIn_step (s : ParserState) (t : Token) : FailsIn .parsing (s.step t) := by
  refine (failsIn_settle s).bind fun s => ?_
  split
  · unfold readOperand
    split <;> first | exact .ok _ | exact .error rfl
  · unfold readArguments
    split
    · exact .ok _
    · exact .error rfl
  · exact failsIn_readOperator s _ t

theorem failsIn_conclude (s : ParserState) (t : Token) : FailsIn .parsing (s.conclude t) := by
  refine (failsIn_settle s).bind fun s => ?_
  split
  · exact .error rfl
  · exact .error rfl
  · refine (failsIn_unwind _ _ _ _).bind fun r => ?_
    dsimp only
    split
    · exact .error rfl
    · exact .error rfl
    · exact .ok _

theorem stage_of_run {s : ParserState} {ending : Except MathError Token} {ts : List Token}
    {e : MathError} (h : s.run ending ts = .error e) :
    e.stage = .parsing ∨ ending = .error e := by
  induction ts generalizing s with
  | nil =>
    cases ending with
    | ok t => exact .inl (failsIn_conclude s t e h)
    | error e' =>
      cases h
      exact .inr rfl
  | cons t ts ih =>
    simp only [run, bind, Except.bind] at h
    split at h
    · next e' he =>
      cases h
      exact .inl (failsIn_step s t e he)
    · exact ih h

end ParserState

/-- A text is refused by the lexer or by the parser. -/
theorem stage_of_parse {text : String} {capacity : Int} {e : MathError}
    (h : parse text capacity = .error e) : e.stage = .lexing ∨ e.stage = .parsing := by
  rcases ParserState.stage_of_run h with hs | hs
  · exact .inr hs
  · exact .inl (Lexer.failsIn_run text.toList .start e hs)

end Calculator
