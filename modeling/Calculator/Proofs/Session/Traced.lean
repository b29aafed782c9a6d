import Calculator.Proofs.Evaluation.Shown
import Calculator.Proofs.Lexing.Numerals
import Calculator.Proofs.Session.Closed
import Calculator.Window.Dialog

/-!
# Evaluations with a trace and without

A text that fits into the entry field has finite numerals only, so every node of its tree can be
printed. Up to the greatest precision that the settings dialog offers every rounded number can be
shown. Then a trace changes nothing but the steps.
-/

namespace Calculator

theorem numeralsFinite_of_length {text : String} (h : text.length ≤ maxInputLength) :
    NumeralsFinite text := by
  have hlimit : maxInputLength ≤ 308 := by decide
  exact fun t ht hk => isFinite_numeralValue_of_mem ht hk (h.trans hlimit)

namespace Session

variable {s : Session} {text : String}

/-- A trace does not change the outcome: both evaluations have a result with the same value and the
same text, or both fail with the same cause at the same place. -/
theorem evaluate_trace_eq (hp : s.settings.precision ≤ dialogPrecisions.2)
    (hlength : text.length ≤ maxInputLength) :
    (s.evaluate text true).value.map (fun r => (r.value, r.formatted)) =
      (s.evaluate text false).value.map fun r => (r.value, r.formatted) := by
  cases hparse : (s.parse text).value with
  | error e => rw [value_evaluate_of_error hparse, value_evaluate_of_error hparse]
  | ok p =>
    have hlimit : dialogPrecisions.2 + 9 ≤ maxDecimals := by decide
    have hs : (s.environment false).settings.ShowsRounded :=
      ArithmeticSettings.showsRounded_of_precision ((Nat.add_le_add_right hp 9).trans hlimit)
    have htree := hparse
    rw [value_parse] at htree
    have hfinite := (derives_of_parse htree).2.allFinite (numeralsFinite_of_length hlength)
    have hsame := Environment.calculate_withTrace hs (printable_of_parse htree hfinite) s.maxSteps
      text
    have hview (r : Except Failure CalculationResult) :
        (r.mapError (·.inEquation text)).map (fun r => (r.value, r.formatted)) =
          (r.map fun r => (r.value, r.formatted)).mapError (·.inEquation text) := by
      cases r <;> rfl
    rw [value_evaluate hparse, value_evaluate hparse, hview, hview]
    exact congrArg _ hsame

/-- With 15 significant digits the last division of `2*(1/3-ln(5)) + 7/(2/3-4/6)` fails, with a
trace and without. -/
theorem evaluate_trace_eq_division :
    (15 ≤ dialogPrecisions.2 ∧ "2*(1/3-ln(5)) + 7/(2/3-4/6)".length ≤ maxInputLength) ∧
      ((⟨⟨.round, 15, true⟩, .empty 0, 20, 40⟩ : Session).evaluate
          "2*(1/3-ln(5)) + 7/(2/3-4/6)" true).value.map (fun r => (r.value, r.formatted)) =
        ((⟨⟨.round, 15, true⟩, .empty 0, 20, 40⟩ : Session).evaluate
          "2*(1/3-ln(5)) + 7/(2/3-4/6)" false).value.map fun r => (r.value, r.formatted) :=
  have hp : 15 ≤ dialogPrecisions.2 := by decide
  have hlength : "2*(1/3-ln(5)) + 7/(2/3-4/6)".length ≤ maxInputLength := by decide
  ⟨⟨hp, hlength⟩, evaluate_trace_eq hp hlength⟩

end Session

end Calculator
