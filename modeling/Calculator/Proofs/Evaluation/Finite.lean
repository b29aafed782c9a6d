import Calculator.Proofs.Evaluation.Alike
import Calculator.Proofs.Settings.Finite

/-!
# Finite evaluations

Under settings that keep numbers finite, every tree that can be printed evaluates to a finite number
or fails with an error of the evaluation. The check for overflow stands behind every operation; what
is left to show is that leaves are finite, that rounding keeps finite numbers finite, and that the
texts that errors and steps need can be written.
-/

namespace Calculator

/-- The outcome is no fault, and an error among it is one of the evaluation. -/
def Faultless {α : Type} : Except Failure α → Prop
  | .ok _ => True
  | .error (.error e) => e.stage = .evaluation
  | .error (.fault _) => False

/-- The outcome is a finite number or an error of the evaluation. -/
def Sound (outcome : Except Failure Float) : Prop :=
  Faultless outcome ∧ ∀ v, outcome = .ok v → v.isFinite = true

def SymbolTable.IsFinite (t : SymbolTable) : Prop :=
  ∀ entry ∈ t.entries, entry.2.isFinite = true

theorem faultless_failAt {α : Type} {cause : Cause} {span : Option Span}
    (h : cause.stage = .evaluation) : Faultless (failAt cause span : Except Failure α) := h

theorem sound_failAt {cause : Cause} {span : Option Span} (h : cause.stage = .evaluation) :
    Sound (failAt cause span) := ⟨h, nofun⟩

theorem sound_ok {v : Float} (h : v.isFinite = true) : Sound (.ok v) :=
  ⟨trivial, fun _ hw => by cases hw; exact h⟩

theorem Sound.bind {outcome : Except Failure Float} {next : Float → Except Failure Float}
    (h : Sound outcome) (hn : ∀ v, v.isFinite = true → Sound (next v)) :
    Sound (outcome.bind next) := by
  cases outcome with
  | ok v => exact hn v (h.2 v rfl)
  | error f => exact ⟨h.1, nofun⟩

section

variable {v w : Float} {span : Option Span}

theorem faultless_power : Faultless (power v w span) := by
  simp only [power]
  split
  · trivial
  · exact faultless_failAt rfl

theorem faultless_factorial (hv : v.isFinite = true) : Faultless (factorial v span) := by
  simp only [factorial, isNaN_of_isFinite hv, isInf_of_isFinite hv, Bool.false_eq_true, if_false]
  split
  · exact faultless_failAt rfl
  · split
    · exact faultless_failAt rfl
    · split
      · exact faultless_failAt rfl
      · trivial

theorem faultless_onAngles {f : Float → Float} (hv : v.isFinite = true) :
    Faultless (onAngles f v) := by
  simp only [onAngles, isInf_of_isFinite hv, Bool.false_eq_true, if_false]
  trivial

theorem FunctionKind.faultless_apply (f : FunctionKind) (hv : v.isFinite = true) :
    Faultless (f.apply v span) := by
  cases f with
  | sin | cos | tan => exact faultless_onAngles hv
  | log | ln | sqrt =>
    simp only [apply]
    split
    · exact faultless_failAt rfl
    · trivial

theorem Operator.faultless_apply {settings : ArithmeticSettings} (hs : settings.KeepsFinite)
    (op : Operator) (hv : v.isFinite = true) (hw : w.isFinite = true) :
    Faultless (op.apply settings v w span) := by
  cases op with
  | add | sub | mul => trivial
  | pow => exact faultless_power
  | div =>
    obtain ⟨dividend, hl⟩ := ArithmeticSettings.exists_formatNumber hs hv
    obtain ⟨divisor, hr⟩ := ArithmeticSettings.exists_formatNumber hs hw
    simp only [apply, hl, hr]
    split
    · exact faultless_failAt rfl
    · trivial

theorem isFinite_constantValue? {name : String} (h : constantValue? name = some v) :
    v.isFinite = true := by
  unfold constantValue? at h
  split at h <;> cases h <;> decide

theorem SymbolTable.sound_resolve {t : SymbolTable} (ht : t.IsFinite) (name : String) :
    Sound (t.resolve name span) := by
  simp only [resolve]
  split
  · next v hv =>
    apply sound_ok
    cases hc : constantValue? name with
    | some c =>
      rw [hc, Option.some_or, Option.some.injEq] at hv
      exact hv ▸ isFinite_constantValue? hc
    | none =>
      rw [hc, Option.none_or] at hv
      obtain ⟨l, r, heq, -⟩ := List.lookup_eq_some_iff.1 hv
      exact ht (name, v) (by simp [heq])
  · exact sound_failAt rfl

end

theorem Operation.exists_step {settings : ArithmeticSettings} {o : Operation}
    (hd : ∃ text, o.describe settings = .ok text) (hn : ∃ text, o.node.print = .ok text)
    (hv : ∃ text, settings.formatNumber o.value = .ok text) :
    ∃ step, o.step settings = .ok step := by
  obtain ⟨description, hd⟩ := hd
  obtain ⟨expression, hn⟩ := hn
  obtain ⟨result, hv⟩ := hv
  refine ⟨⟨expression, description, result⟩, ?_⟩
  simp only [step, hd, hn, hv]
  rfl

namespace Environment

variable {env : Environment} {e : Expr}

theorem sound_perform (hs : env.settings.KeepsFinite) {raw : Except Failure Float} {name : String}
    {span : Option Span} {operation : Float → Operation} (hraw : Faultless raw)
    (hv : ∀ v, (operation v).value = v)
    (hstep : ∀ v, v.isFinite = true → ∃ step, (operation v).step env.settings = .ok step) :
    Sound (env.perform raw name span operation).outcome := by
  cases raw with
  | error f => exact ⟨hraw, nofun⟩
  | ok raw =>
    simp only [perform, finish]
    by_cases hfinite : raw.isFinite = true
    · have hvalue := ArithmeticSettings.isFinite_applyFormat hs hfinite
      obtain ⟨step, hstep⟩ := hstep _ hvalue
      simp only [if_pos hfinite, noted, hstep, hv]
      split <;> exact sound_ok hvalue
    · simp only [if_neg hfinite]
      exact sound_failAt rfl

/-- A printable tree evaluates to a finite number or fails with an error of the evaluation. -/
theorem sound_walk (hs : env.settings.KeepsFinite) (ht : env.symbols.IsFinite) (h : Printable e) :
    Sound (env.walk e).outcome := by
  have hshow {v : Float} (hv : v.isFinite = true) :=
    ArithmeticSettings.exists_formatNumber hs hv
  have hbinary {op : Operator} {left right : Expr} {unary : Bool} {span : Option Span}
      (hp : Printable (.binary (some op) left right unary span))
      (ihl : Sound (env.walk left).outcome) (ihr : Sound (env.walk right).outcome) :
      Sound (env.walk (.binary (some op) left right unary span)).outcome := by
    simp only [walk, Walk.outcome_andThen]
    refine ihl.bind fun l hl => ihr.bind fun r hr => ?_
    refine sound_perform hs (op.faultless_apply hs hl hr) (fun _ => rfl) fun v hv => ?_
    obtain ⟨leftText, hlt⟩ := hshow hl
    obtain ⟨rightText, hrt⟩ := hshow hr
    obtain ⟨text, htext, -⟩ := Expr.spells_print hp
    exact Operation.exists_step ⟨_, by simp only [Operation.describe, hlt, hrt]; rfl⟩
      ⟨text, htext⟩ (hshow hv)
  induction h with
  | number hv => exact sound_ok (ArithmeticSettings.isFinite_applyFormat hs hv)
  | @named name span hname =>
    have hresolve : Sound (env.symbols.resolve name span) := SymbolTable.sound_resolve ht name
    simp only [walk, Walk.leaf]
    cases hr : env.symbols.resolve name span with
    | ok v =>
      rw [hr] at hresolve
      exact sound_ok (ArithmeticSettings.isFinite_applyFormat hs (hresolve.2 v rfl))
    | error f =>
      rw [hr] at hresolve
      exact ⟨hresolve.1, fun _ hv => by cases hv⟩
  | @negation zero e sign span hz he ih =>
    have hzero : zero.isFinite = true := by
      rcases hz with rfl | rfl <;> decide
    exact hbinary (.negation hz he)
      (sound_ok (ArithmeticSettings.isFinite_applyFormat hs hzero)) ih
  | binary hl hr ihl ihr => exact hbinary (.binary hl hr) ihl ihr
  | @call f e span he ih =>
    simp only [walk, Walk.outcome_andThen]
    refine ih.bind fun x hx => ?_
    refine sound_perform hs (f.faultless_apply hx) (fun _ => rfl) fun v hv => ?_
    obtain ⟨argument, ha⟩ := hshow hx
    have hp : Printable (.call f e span) := .call he
    obtain ⟨text, htext, -⟩ := Expr.spells_print hp
    exact Operation.exists_step ⟨_, by simp only [Operation.describe, ha]; rfl⟩ ⟨text, htext⟩
      (hshow hv)
  | @factorial e span he ih =>
    simp only [walk, Walk.outcome_andThen]
    refine ih.bind fun x hx => ?_
    refine sound_perform hs (faultless_factorial hx) (fun _ => rfl) fun v hv => ?_
    obtain ⟨operand, ho⟩ := hshow hx
    have hp : Printable (.factorial e span) := .factorial he
    obtain ⟨text, htext, -⟩ := Expr.spells_print hp
    exact Operation.exists_step ⟨_, by simp only [Operation.describe, ho]; rfl⟩ ⟨text, htext⟩
      (hshow hv)
  | group he ih => exact ih

end Environment

end Calculator
