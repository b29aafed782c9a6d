import Calculator.Session

/-!
# What the operations of a session answer

The answers of a session without what is logged on the way to them.
-/

namespace Calculator

/-- The failure of an evaluation, as it is reported for a text. -/
def Failure.inEquation (f : Failure) (text : String) : Failure :=
  match f with
  | .error e => .error (e.inEquation text)
  | .fault f => .fault f

namespace Session

variable {s : Session} {text : String} {p : Parsed}

theorem value_parse (s : Session) (text : String) :
    (s.parse text).value = Calculator.parse text s.maxNodes := by
  unfold parse
  cases Calculator.parse text s.maxNodes <;> rfl

theorem value_formatExpression (h : (s.parse text).value = .ok p) :
    (s.formatExpression text).value = p.tree.print.mapError .fault := by
  simp only [formatExpression, Logged.map, h]

theorem value_failing {α : Type} (text : String) (f : Failure) :
    (failing text f : Logged (Except Failure α)).value = .error (f.inEquation text) := by
  cases f <;> rfl

/-- An accepted text has the result of its tree; a failure is reported for the text. -/
theorem value_evaluate (h : (s.parse text).value = .ok p) (trace : Bool) :
    (s.evaluate text trace).value =
      ((s.environment trace).calculate p.tree s.maxSteps text).mapError (·.inEquation text) := by
  simp only [evaluate, h, Environment.calculate]
  cases (s.environment trace).result ((s.environment trace).walk p.tree) s.maxSteps text with
  | ok r => rfl
  | error f => exact value_failing text f

theorem value_evaluate_of_error {e : MathError} (h : (s.parse text).value = .error e)
    (trace : Bool) : (s.evaluate text trace).value = .error (.error (e.inEquation text)) := by
  simp only [evaluate, h]
  exact value_failing text (.error e)

end Session

end Calculator
