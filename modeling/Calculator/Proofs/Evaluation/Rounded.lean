import Calculator.Proofs.Evaluation.Node

/-!
# Values are rounded

The value of an expression is rounded as the settings ask for, whatever the expression is: leaves
and operations round, and brackets keep what is rounded. So a result is not changed when it is
rounded once more, nor when it is shown.
-/

namespace Calculator

namespace Environment

variable {env : Environment} {e : Expr} {v : Float}

/-- What a node does by itself with rounded values has a rounded value. -/
theorem applyFormat_of_own {vs : List Float} (hlength : vs.length = e.children.length)
    (hvs : ∀ w ∈ vs, env.settings.applyFormat w = w) (h : (env.own e vs).outcome = .ok v) :
    env.settings.applyFormat v = v := by
  cases env.own_cases hlength with
  | operation o of own =>
    have hnoted : (env.noted o).outcome = .ok v :=
      (congrArg Walk.outcome (own env.traced)).symm.trans h
    rw [← (outcome_noted_eq_ok_iff.1 hnoted).1]
    exact of.rounded
  | leaf outcome own value =>
    have houtcome : outcome = .ok v := (congrArg Walk.outcome (own env.traced)).symm.trans h
    rcases (value v houtcome).2 with hv | hv
    · exact hv
    · exact hvs v hv

theorem applyFormat_of_evaluate (h : env.evaluate e = .ok v) : env.settings.applyFormat v = v := by
  induction e using Expr.byChildren generalizing v with
  | node e ih =>
    obtain ⟨vs, hvs, hown⟩ := evaluate_eq_ok_iff.1 h
    refine applyFormat_of_own hvs.length_eq.symm ?_ hown
    exact forall_right_of_forall₂ hvs fun child hchild w hw => ih child hchild hw

def recorded (env : Environment) (w : Walk) (limit : Int) : StepRecorder :=
  (StepRecorder.fresh limit).recordAll (if env.traced then env.steps w.operations else [])

variable {limit : Int} {text : String} {r : CalculationResult}

theorem calculate_of_evaluate (h : env.evaluate e = .ok v) (limit : Int) (text : String) :
    env.calculate e limit text = ((env.settings.textOf v).mapError .fault).map fun formatted =>
      { value := v, steps := (env.recorded (env.walk e) limit).steps,
        dropped := (env.recorded (env.walk e) limit).dropped, formatted,
        settings := env.settings, expression := text } := by
  have hwalk : (env.walk e).outcome = .ok v := h
  have hrounded := applyFormat_of_evaluate h
  simp only [calculate, result, hwalk, bind, Except.bind, hrounded,
    ArithmeticSettings.formatNumber_of_rounded hrounded]
  cases env.settings.textOf v <;> rfl

theorem calculate_of_error {f : Failure} (h : env.evaluate e = .error f) (limit : Int)
    (text : String) : env.calculate e limit text = .error f := by
  have hwalk : (env.walk e).outcome = .error f := h
  simp only [calculate, result, hwalk]
  rfl

/-- What is known of a tree with a result. -/
theorem calculate_eq_ok_iff : env.calculate e limit text = .ok r ↔
    env.evaluate e = .ok r.value ∧ env.settings.textOf r.value = .ok r.formatted ∧
      r.steps = (env.recorded (env.walk e) limit).steps ∧
      r.dropped = (env.recorded (env.walk e) limit).dropped ∧
      r.settings = env.settings ∧ r.expression = text := by
  constructor
  · intro h
    cases hv : env.evaluate e with
    | error f =>
      rw [calculate_of_error hv] at h
      cases h
    | ok v =>
      rw [calculate_of_evaluate hv] at h
      cases htext : env.settings.textOf v with
      | error f =>
        rw [htext] at h
        cases h
      | ok formatted =>
        rw [htext] at h
        cases h
        exact ⟨rfl, htext, rfl, rfl, rfl, rfl⟩
  · rintro ⟨hv, htext, hsteps, hdropped, hsettings, hexpression⟩
    rw [calculate_of_evaluate hv, htext, ← hsteps, ← hdropped, ← hsettings, ← hexpression]
    rfl

/-- What is rounded once is rounded for good: rounding a number or its decimal again changes
nothing, the value of every tree is rounded, and a result is this value, shown as it stands. -/
theorem rounding_is_final (s : ArithmeticSettings) :
    (∀ v, s.applyFormat (s.applyFormat v) = s.applyFormat v) ∧
    (∀ d, (s.policy (s.policy d)).negative = (s.policy d).negative ∧
      (s.policy (s.policy d)).magnitude = (s.policy d).magnitude) ∧
    ∀ symbols traced e,
      (∀ v, Environment.evaluate ⟨symbols, s, traced⟩ e = .ok v →
        s.applyFormat v = v ∧ s.formatNumber v = s.textOf v) ∧
      ∀ limit text r, Environment.calculate ⟨symbols, s, traced⟩ e limit text = .ok r →
        Environment.evaluate ⟨symbols, s, traced⟩ e = .ok r.value ∧
          s.textOf r.value = .ok r.formatted := by
  refine ⟨s.applyFormat_applyFormat, s.policy_policy, fun symbols traced e =>
    ⟨fun v hv => ?_, fun limit text r hr => ?_⟩⟩
  · have hrounded : s.applyFormat v = v := applyFormat_of_evaluate hv
    exact ⟨hrounded, ArithmeticSettings.formatNumber_of_rounded hrounded⟩
  · obtain ⟨hv, htext, -⟩ := calculate_eq_ok_iff.1 hr
    exact ⟨hv, htext⟩

/-- With three significant digits `10 - 0.004` is carried to `10.0`, which has its last significant
digit one place earlier. -/
theorem rounding_is_final_carry :
    ∃ r, Environment.calculate ⟨.empty 0, ⟨.round, 3, true⟩, false⟩
        (.binary (some .sub) (.number 10.0 none) (.number 0.004 none) false none) 0 "" = .ok r ∧
      Environment.evaluate ⟨.empty 0, ⟨.round, 3, true⟩, false⟩
        (.binary (some .sub) (.number 10.0 none) (.number 0.004 none) false none) = .ok 10.0 ∧
      r.value = 10.0 ∧
      (⟨.round, 3, true⟩ : ArithmeticSettings).applyFormat 10.0 = 10.0 ∧
      (⟨.round, 3, true⟩ : ArithmeticSettings).formatNumber 10.0 = .ok r.formatted := by
  have hvalue : (Environment.calculate ⟨.empty 0, ⟨.round, 3, true⟩, false⟩
      (.binary (some .sub) (.number 10.0 none) (.number 0.004 none) false none) 0 "").toOption.map
      CalculationResult.value = some 10.0 := by decide +kernel
  cases hr : Environment.calculate ⟨.empty 0, ⟨.round, 3, true⟩, false⟩
      (.binary (some .sub) (.number 10.0 none) (.number 0.004 none) false none) 0 "" with
  | error f =>
    rw [hr] at hvalue
    cases hvalue
  | ok r =>
    rw [hr] at hvalue
    have hten : r.value = 10.0 := Option.some.inj hvalue
    obtain ⟨-, -, hfinal⟩ := rounding_is_final ⟨.round, 3, true⟩
    obtain ⟨hshown, hresult⟩ := hfinal (.empty 0) false
      (.binary (some .sub) (.number 10.0 none) (.number 0.004 none) false none)
    obtain ⟨hv, htext⟩ := hresult 0 "" r hr
    rw [hten] at hv htext
    obtain ⟨hrounded, hformat⟩ := hshown 10.0 hv
    exact ⟨r, rfl, hv, hten, hrounded, hformat.trans htext⟩

end Environment

end Calculator
