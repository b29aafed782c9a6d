import Calculator.Evaluation.Result
import Calculator.Proofs.Printing.Accepted

/-!
# Evaluation and places

Places and brackets do not matter to an evaluation: trees that print alike and have the same
operations give the same value, or fail for the same reason.
-/

namespace Calculator

/-- What a failure is about, its place aside. -/
def Failure.reason : Failure → Cause ⊕ Fault
  | error e => .inl e.cause
  | fault f => .inr f

/-- The same result, or failures for the same reason. -/
def Alike {α : Type} (a b : Except Failure α) : Prop :=
  a.mapError Failure.reason = b.mapError Failure.reason

namespace Alike

variable {α β : Type} {a b c : Except Failure α}

theorem refl (a : Except Failure α) : Alike a a := Eq.refl _

theorem symm (h : Alike a b) : Alike b a := Eq.symm h

theorem trans (h : Alike a b) (h' : Alike b c) : Alike a c := Eq.trans h h'

theorem of_failAt (cause : Cause) (span span' : Option Span) :
    Alike (failAt cause span : Except Failure α) (failAt cause span') := Eq.refl _

theorem cases (h : Alike a b) :
    (∃ v, a = .ok v ∧ b = .ok v) ∨
      ∃ f f', a = .error f ∧ b = .error f' ∧ f.reason = f'.reason := by
  unfold Alike at h
  cases a with
  | ok v =>
    cases b with
    | ok w =>
      simp only [Except.mapError, Except.ok.injEq] at h
      exact .inl ⟨v, rfl, by rw [h]⟩
    | error f => cases h
  | error f =>
    cases b with
    | ok w => cases h
    | error f' =>
      simp only [Except.mapError, Except.error.injEq] at h
      exact .inr ⟨f, f', rfl, rfl, h⟩

theorem bind {f g : α → Except Failure β} (h : Alike a b) (hfg : ∀ v, Alike (f v) (g v)) :
    Alike (a.bind f) (b.bind g) := by
  rcases h.cases with ⟨v, rfl, rfl⟩ | ⟨f, f', rfl, rfl, hr⟩
  · exact hfg v
  · simp only [Alike, Except.bind, Except.mapError, hr]

theorem map (f : α → β) (h : Alike a b) : Alike (a.map f) (b.map f) := by
  rcases h.cases with ⟨v, rfl, rfl⟩ | ⟨f, f', rfl, rfl, hr⟩
  · exact refl _
  · simp only [Alike, Except.map, Except.mapError, hr]

end Alike

section

variable (v w : Float) (span span' : Option Span)

theorem alike_power : Alike (power v w span) (power v w span') := by
  simp only [power]
  split
  · exact .refl _
  · exact .of_failAt _ _ _

theorem alike_factorial : Alike (factorial v span) (factorial v span') := by
  simp only [factorial]
  split
  · exact .of_failAt _ _ _
  · split
    · exact .refl _
    · split
      · exact .refl _
      · split
        · exact .of_failAt _ _ _
        · split
          · exact .of_failAt _ _ _
          · exact .refl _

theorem FunctionKind.alike_apply (f : FunctionKind) : Alike (f.apply v span) (f.apply v span') := by
  cases f with
  | sin | cos | tan => exact .refl _
  | log | ln | sqrt =>
    simp only [apply]
    split
    · exact .of_failAt _ _ _
    · exact .refl _

theorem Operator.alike_apply (settings : ArithmeticSettings) (op : Operator) :
    Alike (op.apply settings v w span) (op.apply settings v w span') := by
  cases op with
  | add | sub | mul => exact .refl _
  | pow => exact alike_power v w span span'
  | div =>
    simp only [apply]
    split
    · split
      · exact .of_failAt _ _ _
      · exact .refl _
      · exact .refl _
    · exact .refl _

theorem SymbolTable.alike_resolve (t : SymbolTable) (name : String) :
    Alike (t.resolve name span) (t.resolve name span') := by
  simp only [resolve]
  split
  · exact .refl _
  · exact .of_failAt _ _ _

end

theorem Walk.outcome_andThen (w : Walk) (next : Float → Walk) :
    (w.andThen next).outcome = w.outcome.bind fun v => (next v).outcome := by
  obtain ⟨operations, outcome⟩ := w
  cases outcome <;> rfl

theorem Operation.step_congr {settings : ArithmeticSettings} {o o' : Operation}
    (hd : o.describe settings = o'.describe settings) (hn : o.node.print = o'.node.print)
    (hv : o.value = o'.value) : o.step settings = o'.step settings := by
  simp only [step, hd, hn, hv]

namespace Environment

variable {env : Environment} {raw raw' : Except Failure Float} {name : String}
  {span span' : Option Span} {operation operation' : Float → Operation}

theorem outcome_noted_congr {o o' : Operation} (hs : o.step env.settings = o'.step env.settings)
    (hv : o.value = o'.value) : (env.noted o).outcome = (env.noted o').outcome := by
  unfold noted
  rw [hs, hv]
  split
  · split <;> rfl
  · rfl

theorem alike_perform (hraw : Alike raw raw')
    (hs : ∀ v, (operation v).step env.settings = (operation' v).step env.settings)
    (hv : ∀ v, (operation v).value = (operation' v).value) :
    Alike (env.perform raw name span operation).outcome
      (env.perform raw' name span' operation').outcome := by
  rcases hraw.cases with ⟨v, rfl, rfl⟩ | ⟨f, f', rfl, rfl, hr⟩
  · simp only [perform, finish]
    by_cases hfinite : v.isFinite = true
    · simp only [if_pos hfinite]
      rw [outcome_noted_congr (hs _) (hv _)]
      exact .refl _
    · simp only [if_neg hfinite]
      exact .of_failAt _ _ _
  · simp only [perform, Walk.leaf, Alike, Except.mapError, hr]

variable {e e' left left' right right' : Expr}

theorem alike_binary {op : Option Operator} {unary : Bool}
    (hl : Alike (env.walk left).outcome (env.walk left').outcome)
    (hr : Alike (env.walk right).outcome (env.walk right').outcome)
    (hp : (Expr.binary op left right unary span).print =
      (Expr.binary op left' right' unary span').print) :
    Alike (env.walk (.binary op left right unary span)).outcome
      (env.walk (.binary op left' right' unary span')).outcome := by
  simp only [walk, Walk.outcome_andThen]
  refine hl.bind fun v => hr.bind fun w => ?_
  cases op with
  | none => exact .refl _
  | some op =>
    refine alike_perform (op.alike_apply _ _ _ _ _) (fun x => ?_) fun x => rfl
    exact Operation.step_congr rfl hp rfl

theorem alike_call {f : FunctionKind} (h : Alike (env.walk e).outcome (env.walk e').outcome)
    (hp : (Expr.call f e span).print = (Expr.call f e' span').print) :
    Alike (env.walk (.call f e span)).outcome (env.walk (.call f e' span')).outcome := by
  simp only [walk, Walk.outcome_andThen]
  refine h.bind fun v => alike_perform (f.alike_apply _ _ _) (fun x => ?_) fun x => rfl
  exact Operation.step_congr rfl hp rfl

theorem alike_factorial (h : Alike (env.walk e).outcome (env.walk e').outcome)
    (hp : (Expr.factorial e span).print = (Expr.factorial e' span').print) :
    Alike (env.walk (.factorial e span)).outcome (env.walk (.factorial e' span')).outcome := by
  simp only [walk, Walk.outcome_andThen]
  refine h.bind fun v => alike_perform (Calculator.alike_factorial _ _ _) (fun x => ?_) fun x => rfl
  exact Operation.step_congr rfl hp rfl

theorem alike_named {name : String} :
    Alike (env.walk (.named name span)).outcome (env.walk (.named name span')).outcome := by
  simp only [walk, Walk.leaf]
  exact (env.symbols.alike_resolve span span' name).map _

/-- An evaluation does not depend on the places of the nodes. -/
theorem alike_walk_bare (e : Expr) : Alike (env.walk e.bare).outcome (env.walk e).outcome := by
  induction e with
  | number | blank => exact .refl _
  | named => exact alike_named
  | binary op left right unary span ihl ihr =>
    exact alike_binary ihl ihr (Expr.print_bare (.binary op left right unary span))
  | call f argument span ih => exact alike_call ih (Expr.print_bare (.call f argument span))
  | factorial operand span ih =>
    exact alike_factorial ih (Expr.print_bare (.factorial operand span))
  | group inner span ih => exact ih

theorem walk_enclosed (needed : Bool) (e : Expr) :
    env.walk (e.enclosed needed) = env.walk e := by
  cases needed with
  | true => exact walk.eq_3 env e none
  | false => rfl

/-- What is read back from the printed text of a parsed tree evaluates as the tree does. -/
theorem alike_walk_reread {c : Category} {ts : List Token} (h : Derives c ts e)
    (hn : Derives.NamesRead ts) (hf : e.AllFinite) :
    Alike (env.walk e.reread).outcome (env.walk e).outcome := by
  induction h using Derives.byRules with
  | @number t ht =>
    simp only [Expr.reread, if_neg (not_numeralValue_lt_zero t.text), abs_numeralValue]
    exact .refl _
  | named ht => exact alike_named
  | call hk ho h hc ih =>
    have hp := Expr.print_reread ((Derives.call hk ho h hc).printable hn hf)
    exact alike_call (ih (fun t ht => hn t (by simp [ht])) (Expr.allFinite_call.1 hf)) hp
  | group ho h hc ih => exact ih (fun t ht => hn t (by simp [ht])) (Expr.allFinite_group.1 hf)
  | weaken _ _ ih => exact ih hn hf
  | factorial h hb ih =>
    have hp := Expr.print_reread ((Derives.factorial h hb).printable hn hf)
    refine alike_factorial ?_ hp
    rw [walk_enclosed]
    exact ih (fun t ht => hn t (by simp [ht])) (Expr.allFinite_factorial.1 hf)
  | negation hm h ih =>
    have hp := Expr.print_reread ((Derives.negation hm h).printable hn hf)
    refine alike_binary (.refl _) ?_ hp
    rw [walk_enclosed]
    exact ih (fun t ht => hn t (by simp [ht])) (Expr.allFinite_negation.1 hf)
  | joined hl hu hr ihl ihr =>
    have hp := Expr.print_reread ((hl.joined hu hr).printable hn hf)
    obtain ⟨hfl, hfr⟩ := Expr.allFinite_joined.1 hf
    refine alike_binary ?_ ?_ hp
    · rw [walk_enclosed]
      exact ihl (fun t ht => hn t (by simp [ht])) hfl
    · rw [walk_enclosed]
      exact ihr (fun t ht => hn t (by simp [ht])) hfr

end Environment

end Calculator
