import Calculator.Proofs.Evaluation.Finite
import Calculator.Proofs.Evaluation.Rounded

/-!
# A trace does not change the outcome

A trace describes each operation as soon as it is done, which needs the printed node and the texts
of rounded numbers. Where both can always be written, an evaluation has the same outcome with a
trace as without one, be it a value or a failure.
-/

namespace Calculator

namespace ArithmeticSettings

/-- All rounded numbers can be shown. -/
def ShowsRounded (s : ArithmeticSettings) : Prop :=
  ∀ v, s.applyFormat v = v → ∃ text, s.formatNumber v = .ok text

theorem showsRounded_of_precision {s : ArithmeticSettings} (hp : s.precision + 9 ≤ maxDecimals) :
    s.ShowsRounded := by
  intro v hv
  have hplaces := s.displayDecimals_le_add v
  have hnormal : normalDecimals + 9 ≤ maxDecimals := by decide
  have hlimits : maxDecimals ≤ maxDecimalsNumber := by decide
  rw [formatNumber_of_rounded hv, textOf]
  split
  · dsimp only
    split
    · exact ⟨_, rfl⟩
    · rw [Binary.fixedText, if_neg (by omega), if_neg (by omega)]
      exact ⟨_, rfl⟩
  · exact ⟨_, rfl⟩

theorem ShowsRounded.exists_mapM {s : ArithmeticSettings} (hs : s.ShowsRounded) {vs : List Float}
    (hvs : ∀ v ∈ vs, s.applyFormat v = v) : ∃ texts, vs.mapM s.formatNumber = .ok texts := by
  induction vs with
  | nil => exact ⟨[], rfl⟩
  | cons v vs ih =>
    obtain ⟨hv, hvs⟩ := List.forall_mem_cons.1 hvs
    obtain ⟨text, htext⟩ := hs v hv
    obtain ⟨texts, htexts⟩ := ih hvs
    refine ⟨text :: texts, ?_⟩
    rw [List.mapM_cons, htext, htexts]
    rfl

end ArithmeticSettings

theorem Printable.of_mem_children {e child : Expr} (h : Printable e) (hc : child ∈ e.children) :
    Printable child := by
  cases h with
  | number | named => cases hc
  | negation hz he =>
    rcases List.mem_pair.1 hc with rfl | rfl
    · exact .number (by rcases hz with rfl | rfl <;> decide)
    · exact he
  | binary hl hr =>
    rcases List.mem_pair.1 hc with rfl | rfl
    · exact hl
    · exact hr
  | call he | factorial he | group he =>
    obtain rfl := List.mem_singleton.1 hc
    exact he

namespace Environment

variable {env : Environment} {e : Expr} {vs : List Float} {o : Operation}

theorem exists_step_of_rounded (hs : env.settings.ShowsRounded) (hp : Printable e)
    (hof : o.IsOf env.settings e vs) (hvs : ∀ v ∈ vs, env.settings.applyFormat v = v) :
    ∃ step, o.step env.settings = .ok step := by
  obtain ⟨texts, htexts⟩ := hs.exists_mapM hvs
  obtain ⟨text, htext, -⟩ := Expr.spells_print hp
  refine Operation.exists_step ⟨e.wording texts, ?_⟩ ⟨text, ?_⟩ (hs _ hof.rounded)
  · rw [hof.described, htexts]
    rfl
  · rw [hof.node, htext]

/-- A printable tree has the same outcome with a trace as without one. -/
theorem evaluate_withTrace (hs : env.settings.ShowsRounded) (hp : Printable e) :
    (env.withTrace true).evaluate e = (env.withTrace false).evaluate e := by
  induction e using Expr.byChildren with
  | node e ih =>
    have hchildren : e.children.mapM (env.withTrace true).evaluate =
        e.children.mapM (env.withTrace false).evaluate :=
      mapM_congr fun child hchild => ih child hchild (hp.of_mem_children hchild)
    rw [evaluate_eq, evaluate_eq, hchildren]
    cases hvs : e.children.mapM (env.withTrace false).evaluate with
    | error f => rfl
    | ok vs =>
      have hvalues := mapM_eq_ok_iff.1 hvs
      change ((env.withTrace true).own e vs).outcome = ((env.withTrace false).own e vs).outcome
      cases env.own_cases hvalues.length_eq.symm with
      | leaf outcome own value => rw [own, own]
      | operation o of own =>
        have hrounded : ∀ v ∈ vs, (env.withTrace false).settings.applyFormat v = v :=
          forall_right_of_forall₂ hvalues fun _ _ _ => applyFormat_of_evaluate
        have hstep := exists_step_of_rounded hs hp of hrounded
        have htraced : ((env.withTrace true).noted o).outcome = .ok o.value :=
          outcome_noted_eq_ok_iff.2 ⟨rfl, fun _ => hstep⟩
        have hplain : ((env.withTrace false).noted o).outcome = .ok o.value :=
          outcome_noted_eq_ok_iff.2 ⟨rfl, nofun⟩
        rw [own, own, htraced, hplain]

/-- So its result has the same value and the same text, or there is the same failure. -/
theorem calculate_withTrace (hs : env.settings.ShowsRounded) (hp : Printable e) (limit : Int)
    (text : String) :
    ((env.withTrace true).calculate e limit text).map (fun r => (r.value, r.formatted)) =
      ((env.withTrace false).calculate e limit text).map fun r => (r.value, r.formatted) := by
  have hsame := evaluate_withTrace hs hp
  cases h : (env.withTrace false).evaluate e with
  | error f => rw [calculate_of_error h, calculate_of_error (hsame.trans h)]
  | ok v =>
    rw [calculate_of_evaluate h, calculate_of_evaluate (hsame.trans h)]
    change Except.map _ ((env.settings.textOf v).mapError _ |>.map _) =
      Except.map _ ((env.settings.textOf v).mapError _ |>.map _)
    cases env.settings.textOf v <;> rfl

end Environment

end Calculator
