import Calculator.Proofs.Evaluation.Order
import Calculator.Proofs.Grammar.Errors
import Calculator.Proofs.Grammar.Faithful
import Calculator.Proofs.Session.Basic

/-!
# Errors of an evaluation are localised

The error of an evaluation has a place in the text, and the part of the text at this place fails in
the same way when it is evaluated by itself. It belongs to the first node in post-order that fails.
-/

namespace Calculator

namespace Environment

variable {env : Environment} {w : Walk} {limit : Int} {text : String} {f : Failure} {e : MathError}

theorem result_of_error (h : w.outcome = .error f) : env.result w limit text = .error f := by
  simp only [result, h]
  rfl

/-- An error of a result is one of the walk: what is shown of a value can only fail by a fault. -/
theorem outcome_of_result (h : env.result w limit text = .error (.error e)) :
    w.outcome = .error (.error e) := by
  cases hw : w.outcome with
  | error f =>
    rw [result_of_error hw] at h
    rw [Except.error.inj h]
  | ok v =>
    simp only [result, hw, bind, Except.bind] at h
    cases hformat : env.settings.formatNumber (env.settings.applyFormat v) with
    | error f => simp [hformat, Except.mapError] at h
    | ok shown => simp [hformat, Except.mapError, pure, Except.pure] at h

end Environment

theorem Failure.exists_of_inEquation {f : Failure} {text : String} {e : MathError}
    (h : f.inEquation text = .error e) :
    ∃ raised, f = .error raised ∧ e = raised.inEquation text := by
  cases f with
  | error raised =>
    cases h
    exact ⟨raised, rfl, rfl⟩
  | fault f => cases h

namespace Session

variable {s : Session} {text : String} {trace : Bool} {p : Parsed} {e raised : MathError} {n : Expr}

theorem exists_of_evaluate_error (h : (s.evaluate text trace).value = .error (.error e))
    (hstage : e.stage = .evaluation) :
    ∃ p raised, (s.parse text).value = .ok p ∧
      (s.environment trace).evaluate p.tree = .error (.error raised) ∧
      e = raised.inEquation text := by
  cases hp : (s.parse text).value with
  | error refused =>
    rw [value_evaluate_of_error hp] at h
    cases h
    rw [value_parse] at hp
    rcases stage_of_parse hp with hs | hs
    · exact absurd (hs.symm.trans hstage) nofun
    · exact absurd (hs.symm.trans hstage) nofun
  | ok p =>
    rw [value_evaluate hp, Environment.calculate] at h
    cases hr : (s.environment trace).result ((s.environment trace).walk p.tree) s.maxSteps text with
    | ok r =>
      rw [hr] at h
      cases h
    | error f =>
      rw [hr] at h
      obtain ⟨raised, rfl, rfl⟩ := Failure.exists_of_inEquation (Except.error.inj h)
      exact ⟨p, raised, rfl, Environment.outcome_of_result hr, rfl⟩

/-- A text with the tree of a failing node, but for the places, fails for the same cause. -/
theorem evaluate_of_bare (hp : (s.parse text).value = .ok p) (hb : p.tree.bare = n.bare)
    (hn : (s.environment trace).evaluate n = .error (.error raised)) :
    ∃ e, (s.evaluate text trace).value = .error (.error e) ∧ e.cause = raised.cause := by
  have hwalk := (@Environment.alike_walk_bare (s.environment trace) p.tree).symm
  rw [hb] at hwalk
  have halike := hwalk.trans (Environment.alike_walk_bare n)
  change Alike _ ((s.environment trace).evaluate n) at halike
  rw [hn] at halike
  rcases halike.cases with ⟨v, -, hv⟩ | ⟨f, f', hf, hf', hreason⟩
  · cases hv
  · obtain rfl := Except.error.inj hf'
    cases f with
    | fault f => cases hreason
    | error e =>
      refine ⟨e.inEquation text, ?_, Sum.inl.inj hreason⟩
      rw [value_evaluate hp, Environment.calculate, Environment.result_of_error hf]
      rfl

/-- Errors of an evaluation are localised. The error is that of the first node of the text in
post-order that fails, and every node before it has a value. It has the place of this node, which
lies in the text, and the part of the text at this place raises an error of the evaluation with the
same kind and message in the same session. -/
theorem evaluate_error_localised (h : (s.evaluate text trace).value = .error (.error e))
    (hstage : e.stage = .evaluation) :
    ∃ span, e.span = some span ∧ span.LiesIn text ∧
      (∃ e', (s.evaluate (span.cut text) trace).value = .error (.error e') ∧
        e'.stage = .evaluation ∧ e'.kind = e.kind ∧ e'.cause.message = e.cause.message) ∧
      ∃ p before n after raised, (s.parse text).value = .ok p ∧
        p.tree.postorder = before ++ n :: after ∧
        (∀ m ∈ before, ∃ v, (s.environment trace).evaluate m = .ok v) ∧
        (s.environment trace).evaluate n = .error (.error raised) ∧ n.span = some span ∧
        e = raised.inEquation text := by
  obtain ⟨p, raised, hp, htree, rfl⟩ := exists_of_evaluate_error h hstage
  obtain ⟨before, n, after, hpost, hbefore, hn, hplace⟩ := Environment.exists_first_failing htree
  have hparse := hp
  rw [value_parse] at hparse
  have hmem : n ∈ p.tree.nodes := p.tree.postorder_perm_nodes.subset (by simp [hpost])
  have hwritten : n ∈ p.tree.written := by
    rcases (derives_of_parse hparse).2.mem_written hmem with hwritten | ⟨span, rfl⟩
    · exact hwritten
    · cases hn
  obtain ⟨span, hspan, hlies, q, hq, hbare⟩ := parse_cut_of_mem_written hparse hwritten
  rw [← value_parse] at hq
  obtain ⟨e', he', hcause⟩ := evaluate_of_bare hq hbare hn
  refine ⟨span, (hplace raised rfl).symm.trans hspan, hlies, ⟨e', he', ?_, ?_, ?_⟩,
    p, before, n, after, raised, hp, hpost, hbefore, hn, hspan, rfl⟩
  · rw [← hstage, MathError.stage, hcause]
    rfl
  · rw [MathError.kind, hcause]
    rfl
  · rw [hcause]
    rfl

/-- The usual session refuses `2*(1/0-ln(0))` at the division. -/
theorem evaluate_error_localised_division :
    ∃ e, (({} : Session).evaluate "2*(1/0-ln(0))" false).value = .error (.error e) ∧
      e.stage = .evaluation ∧
      ∃ span, e.span = some span ∧ span.LiesIn "2*(1/0-ln(0))" ∧
        (∃ e', (({} : Session).evaluate (span.cut "2*(1/0-ln(0))") false).value =
            .error (.error e') ∧
          e'.stage = .evaluation ∧ e'.kind = e.kind ∧ e'.cause.message = e.cause.message) ∧
        ∃ p before n after raised, (({} : Session).parse "2*(1/0-ln(0))").value = .ok p ∧
          p.tree.postorder = before ++ n :: after ∧
          (∀ m ∈ before, ∃ v, (({} : Session).environment false).evaluate m = .ok v) ∧
          (({} : Session).environment false).evaluate n = .error (.error raised) ∧
          n.span = some span ∧ e = raised.inEquation "2*(1/0-ln(0))" := by
  have hfails : ((({} : Session).evaluate "2*(1/0-ln(0))" false).value.map fun _ => ()).mapError
      (fun f => f.reason.map Cause.stage fun _ => ()) = .error (.inl .evaluation) := by
    decide +kernel
  cases h : (({} : Session).evaluate "2*(1/0-ln(0))" false).value with
  | ok r =>
    rw [h] at hfails
    cases hfails
  | error f =>
    rw [h] at hfails
    have hreason := Except.error.inj hfails
    cases f with
    | fault f => cases hreason
    | error e =>
      have hstage : e.stage = .evaluation := Sum.inl.inj hreason
      exact ⟨e, rfl, hstage, evaluate_error_localised h hstage⟩

end Session

end Calculator
