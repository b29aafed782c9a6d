import Calculator.Proofs.Evaluation.Alike
import Calculator.Proofs.Session.Basic

/-!
# Printing and evaluating in a session

A session that accepts a text can print it if no literal is infinite, and accepts the printed text
if its pool holds a node for every pair of brackets that the printer adds. The printed text then
evaluates as the text does.
-/

namespace Calculator

/-- A result that is read off a walk depends on the outcome of the walk only, but for the steps. -/
theorem Environment.alike_result {env : Environment} {w w' : Walk} {limit limit' : Int}
    {text text' : String} (h : Alike w.outcome w'.outcome) :
    Alike ((env.result w limit text).map CalculationResult.value)
      ((env.result w' limit' text').map CalculationResult.value) := by
  unfold result
  rcases h.cases with ⟨v, hv, hv'⟩ | ⟨f, f', hf, hf', hr⟩
  · rw [hv, hv']
    simp only [bind, Except.bind]
    cases (env.settings.formatNumber (env.settings.applyFormat v)).mapError Failure.fault with
    | ok formatted => exact .refl _
    | error f => exact .refl _
  · rw [hf, hf']
    simp only [bind, Except.bind, Except.map, Alike, Except.mapError, hr]

namespace Session

variable {s : Session} {text : String} {p : Parsed}

theorem alike_inEquation {α : Type} (r : Except Failure α) (text : String) :
    Alike (r.mapError (·.inEquation text)) r := by
  rcases r with (e | f) | v <;> exact .refl _

theorem alike_evaluate (h : (s.parse text).value = .ok p) (trace : Bool) :
    Alike (s.evaluate text trace).value
      ((s.environment trace).calculate p.tree s.maxSteps text) := by
  rw [value_evaluate h]
  exact alike_inEquation _ _

/-- For an accepted text: it can be printed exactly if no literal is infinite, the printed text is
accepted exactly if the session allows a node more for every negation of a negation, and then it
has the same value, or fails for the same reason. -/
theorem evaluate_formatExpression (h : (s.parse text).value = .ok p) :
    (¬p.tree.AllFinite → (s.formatExpression text).value = .error (.fault .infinityToInteger)) ∧
    (p.tree.AllFinite → ∃ printed, (s.formatExpression text).value = .ok printed ∧
      ((∃ q, (s.parse printed).value = .ok q) ↔
        ((p.tree.size + p.tree.doubleNegations : Nat) : Int) ≤ s.maxNodes) ∧
      ((∃ q, (s.parse printed).value = .ok q) → ∀ trace,
        Alike ((s.evaluate printed trace).value.map CalculationResult.value)
          ((s.evaluate text trace).value.map CalculationResult.value))) := by
  rw [value_formatExpression h]
  have hp := h
  rw [value_parse] at hp
  refine ⟨fun hf => by rw [print_of_parse hp hf]; rfl, fun hf => ?_⟩
  obtain ⟨printed, t, hprint, hbare, hparse⟩ := parse_print_of_parse hp hf
  refine ⟨printed, by rw [hprint]; rfl, ⟨?_, ?_⟩, ?_⟩
  · rintro ⟨q, hq⟩
    rw [value_parse] at hq
    exact (hparse s.maxNodes).2 q hq
  · intro hroom
    exact ⟨_, (value_parse s printed).trans ((hparse s.maxNodes).1 hroom)⟩
  · rintro ⟨q, hq⟩ trace
    have hq' := hq
    rw [value_parse] at hq'
    have htree : q.tree = t := by
      rw [(hparse s.maxNodes).1 ((hparse s.maxNodes).2 q hq')] at hq'
      cases hq'
      rfl
    have hwalk : Alike ((s.environment trace).walk q.tree).outcome
        ((s.environment trace).walk p.tree).outcome := by
      have hreread := @Environment.alike_walk_reread (s.environment trace) _ _ _
        (derives_of_parse hp).2 (namesRead_tokenize text) hf
      rw [← hbare, ← htree] at hreread
      exact (Environment.alike_walk_bare q.tree).symm.trans hreread
    exact ((alike_evaluate hq trace).map _).trans
      ((Environment.alike_result hwalk).trans ((alike_evaluate h trace).map _).symm)

/-- The usual session accepts `--2`. -/
theorem evaluate_formatExpression_negations :
    ∃ p, (({} : Session).parse "--2").value = .ok p ∧
      (¬p.tree.AllFinite →
        (({} : Session).formatExpression "--2").value = .error (.fault .infinityToInteger)) ∧
      (p.tree.AllFinite → ∃ printed, (({} : Session).formatExpression "--2").value = .ok printed ∧
        ((∃ q, (({} : Session).parse printed).value = .ok q) ↔
          ((p.tree.size + p.tree.doubleNegations : Nat) : Int) ≤ ({} : Session).maxNodes) ∧
        ((∃ q, (({} : Session).parse printed).value = .ok q) → ∀ trace,
          Alike ((({} : Session).evaluate printed trace).value.map CalculationResult.value)
            ((({} : Session).evaluate "--2" trace).value.map CalculationResult.value))) := by
  have haccepted : (({} : Session).parse "--2").value.isOk = true := by decide +kernel
  cases hp : (({} : Session).parse "--2").value with
  | ok p => exact ⟨p, rfl, evaluate_formatExpression hp⟩
  | error e =>
    rw [hp] at haccepted
    cases haccepted

end Session

end Calculator
