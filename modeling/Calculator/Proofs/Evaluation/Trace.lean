import Calculator.Proofs.Evaluation.Order
import Calculator.Proofs.Evaluation.Rounded

/-!
# Traces

The steps of a trace are the operations of the tree in post-order. Each step is fixed by its node
alone: the printed node, what it does to the shown values of its operands, and its own shown value.
A recorder keeps the first of them and counts the others, and the last one shows the result.
-/

namespace Calculator

namespace StepRecorder

/-- A recorder keeps steps as long as there is room, and counts the others. -/
theorem recordAll_eq (r : StepRecorder) (steps : List Step) :
    r.recordAll steps = ⟨r.limit, r.steps ++ steps.take (r.limit.toNat - r.steps.length),
      r.dropped + (steps.length - (r.limit.toNat - r.steps.length))⟩ := by
  induction steps generalizing r with
  | nil => simp [recordAll]
  | cons s steps ih =>
    have hstep : r.recordAll (s :: steps) = (r.record s).recordAll steps := rfl
    rw [hstep, ih, record, isFull]
    split
    · next hfull =>
      have hroom : r.limit.toNat - r.steps.length = 0 := by
        have hle := of_decide_eq_true hfull
        omega
      simp only [hroom, List.take_zero, List.append_nil, List.length_cons, mk.injEq, true_and]
      omega
    · next hfull =>
      obtain ⟨room, hroom⟩ : ∃ room, r.limit.toNat - r.steps.length = room + 1 := by
        have hlt := of_decide_eq_false (Bool.eq_false_of_not_eq_true hfull)
        exact ⟨r.limit.toNat - r.steps.length - 1, by omega⟩
      have hless : r.limit.toNat - (r.steps.length + 1) = room := by omega
      simp [hroom, hless]

theorem recordAll_fresh (limit : Int) (steps : List Step) :
    (fresh limit).recordAll steps =
      ⟨limit, steps.take limit.toNat, steps.length - limit.toNat⟩ := by
  simp [recordAll_eq, fresh]

end StepRecorder

def Expr.ungrouped : Expr → Expr
  | group inner _ => inner.ungrouped
  | e => e

def Environment.operandText (env : Environment) (child : Expr) : Except Failure String := do
  (env.settings.formatNumber (← env.evaluate child)).mapError .fault

/-- What a trace says about a node: the printed node, what it does to the shown values of its
operands, and the shown value of the node. -/
def Environment.entry (env : Environment) (n : Expr) : Except Failure Step := do
  let expression ← n.print.mapError .fault
  let operands ← n.children.mapM env.operandText
  let result ← (env.settings.formatNumber (← env.evaluate n)).mapError .fault
  return ⟨expression, n.wording operands, result⟩

theorem Operation.step_eq_ok_iff {settings : ArithmeticSettings} {o : Operation} {s : Step} :
    o.step settings = .ok s ↔ o.describe settings = .ok s.description ∧
      o.node.print = .ok s.expression ∧ settings.formatNumber o.value = .ok s.result := by
  obtain ⟨expression, description, result⟩ := s
  unfold step
  cases o.describe settings with
  | error f => simp [bind, Except.bind]
  | ok d =>
    cases o.node.print with
    | error f => simp [bind, Except.bind]
    | ok p =>
      cases settings.formatNumber o.value with
      | error f => simp [bind, Except.bind]
      | ok t =>
        simp [bind, Except.bind, pure, Except.pure]
        tauto

namespace Environment

variable {env : Environment} {e : Expr} {v : Float} {vs : List Float} {o : Operation} {s : Step}

theorem mapM_operandText {es : List Expr} {texts : List String}
    (hvs : List.Forall₂ (fun child w => env.evaluate child = .ok w) es vs)
    (htexts : vs.mapM env.settings.formatNumber = .ok texts) :
    es.mapM env.operandText = .ok texts := by
  rw [mapM_eq_ok_iff] at htexts ⊢
  induction hvs generalizing texts with
  | nil =>
    cases htexts
    exact .nil
  | cons hw _ ih =>
    obtain _ | ⟨ht, hts⟩ := htexts
    refine .cons ?_ (ih hts)
    rw [operandText, hw]
    simp only [bind, Except.bind, ht]
    rfl

/-- The step of an operation is the entry of its node. -/
theorem entry_of_step (hof : o.IsOf env.settings e vs)
    (hvs : List.Forall₂ (fun child w => env.evaluate child = .ok w) e.children vs)
    (he : env.evaluate e = .ok o.value) (hs : o.step env.settings = .ok s) :
    env.entry e = .ok s := by
  obtain ⟨hdescription, hexpression, hresult⟩ := Operation.step_eq_ok_iff.1 hs
  rw [hof.node] at hexpression
  rw [hof.described] at hdescription
  cases htexts : vs.mapM env.settings.formatNumber with
  | error f =>
    rw [htexts] at hdescription
    cases hdescription
  | ok texts =>
    rw [htexts] at hdescription
    have hwording : e.wording texts = s.description := Except.ok.inj hdescription
    have hoperands := mapM_operandText hvs htexts
    simp only [entry, hexpression, hoperands, he, hresult, bind, Except.bind, pure, Except.pure,
      Except.mapError, hwording]

theorem evaluate_untraced (h : (env.withTrace true).evaluate e = .ok v) :
    (env.withTrace false).evaluate e = .ok v := by
  induction e using Expr.byChildren generalizing v with
  | node e ih =>
    obtain ⟨vs, hvs, hown⟩ := evaluate_eq_ok_iff.1 h
    refine evaluate_eq_ok_iff.2 ⟨vs, ?_, ?_⟩
    · have hboth := (List.forall₂_and_left _ _).2 ⟨fun child hchild => @ih child hchild, hvs⟩
      exact hboth.imp fun _ _ hchild => hchild.1 hchild.2
    · cases env.own_cases hvs.length_eq.symm with
      | operation o of own =>
        rw [own] at hown ⊢
        exact outcome_noted_eq_ok_iff.2 ⟨(outcome_noted_eq_ok_iff.1 hown).1, nofun⟩
      | leaf outcome own value =>
        rw [own] at hown ⊢
        exact hown

/-- The steps of a tree that has a value are the entries of its operations in post-order. -/
theorem steps_of_evaluate (h : (env.withTrace true).evaluate e = .ok v) :
    List.Forall₂ (fun n s => (env.withTrace false).entry n = .ok s)
      (e.postorder.filter Expr.isOperation)
      (env.steps ((env.withTrace true).walk e).operations) := by
  induction e using Expr.byChildren generalizing v with
  | node e ih =>
    obtain ⟨vs, hvs, hown⟩ := evaluate_eq_ok_iff.1 h
    have hchildren : List.Forall₂ (fun n s => (env.withTrace false).entry n = .ok s)
        (e.children.flatMap fun child => child.postorder.filter Expr.isOperation)
        (e.children.flatMap fun child =>
          env.steps ((env.withTrace true).walk child).operations) := by
      refine forall₂_flatMap fun child hchild => ?_
      obtain ⟨w, hw⟩ := exists_of_mapM_eq_ok (mapM_eq_ok_iff.2 hvs) child hchild
      exact ih child hchild hw
    have hnode : List.Forall₂ (fun n s => (env.withTrace false).entry n = .ok s)
        ([e].filter Expr.isOperation) (env.steps ((env.withTrace true).own e vs).operations) := by
      cases env.own_cases hvs.length_eq.symm with
      | operation o of own =>
        rw [own] at hown ⊢
        obtain ⟨hvalue, hstep⟩ := outcome_noted_eq_ok_iff.1 hown
        obtain ⟨s, hs⟩ := hstep rfl
        have hentry : (env.withTrace false).entry e = .ok s :=
          entry_of_step of (hvs.imp fun _ _ hw => evaluate_untraced hw)
            (hvalue ▸ evaluate_untraced h) hs
        have hsteps : env.steps [o] = [s] := by
          have hplain : o.step env.settings = .ok s := hs
          simp [steps, hplain, Except.toOption]
        rw [operations_noted, hsteps, List.filter_cons_of_pos of.isOperation]
        exact .cons hentry .nil
      | leaf outcome own value =>
        rw [own] at hown ⊢
        have hleaf : ¬e.isOperation = true := by
          rw [(value v hown).1]
          exact Bool.false_ne_true
        rw [List.filter_cons_of_neg hleaf]
        exact .nil
    rw [e.postorder_eq, walk_eq, operations_walkAll hvs, List.filter_append, List.filter_flatMap,
      steps, List.filterMap_append, List.filterMap_flatMap]
    exact List.rel_append hchildren hnode

theorem evaluate_ungrouped (env : Environment) (e : Expr) :
    env.evaluate e.ungrouped = env.evaluate e := by
  induction e with
  | group inner span ih => exact ih
  | number | named | binary | call | factorial | blank => rfl

/-- A tree that is an operation but for brackets has this operation last. -/
theorem exists_filter_postorder (h : e.ungrouped.isOperation = true) :
    ∃ before, e.postorder.filter Expr.isOperation = before ++ [e.ungrouped] := by
  have hnode {n : Expr} (hn : n.isOperation = true) :
      n.postorder.filter Expr.isOperation =
        (n.children.flatMap Expr.postorder).filter Expr.isOperation ++ [n] := by
    rw [Expr.postorder_eq, List.filter_append, List.filter_cons_of_pos hn, List.filter_nil]
  induction e with
  | group inner span ih =>
    obtain ⟨before, hbefore⟩ := ih h
    refine ⟨before, ?_⟩
    rw [Expr.postorder, List.filter_append, hbefore]
    exact List.append_nil _
  | binary | call | factorial => exact ⟨_, hnode h⟩
  | number | named | blank => cases h

theorem recorded_traced (env : Environment) (w : Walk) (limit : Int) :
    (env.withTrace true).recorded w limit = ⟨limit, (env.steps w.operations).take limit.toNat,
      (env.steps w.operations).length - limit.toNat⟩ :=
  StepRecorder.recordAll_fresh limit _

theorem formatNumber_of_entry (h : env.entry e = .ok s) (hv : env.evaluate e = .ok v) :
    env.settings.formatNumber v = .ok s.result := by
  obtain ⟨expression, -, h⟩ := bind_eq_ok_iff.1 h
  obtain ⟨operands, -, h⟩ := bind_eq_ok_iff.1 h
  obtain ⟨w, hw, h⟩ := bind_eq_ok_iff.1 h
  obtain ⟨result, hresult, h⟩ := bind_eq_ok_iff.1 h
  cases h
  obtain rfl := Except.ok.inj (hv.symm.trans hw)
  exact mapError_eq_ok_iff.1 hresult

/-- If a tree is an operation but for brackets, the last of the entries shows its value. -/
theorem result_getLast_of_entries {S : List Step} {text : String}
    (hentries : List.Forall₂ (fun n s => env.entry n = .ok s)
      (e.postorder.filter Expr.isOperation) S)
    (h : e.ungrouped.isOperation = true) (hv : env.evaluate e = .ok v)
    (htext : env.settings.formatNumber v = .ok text) :
    S.getLast?.map Step.result = some text := by
  obtain ⟨before, hbefore⟩ := exists_filter_postorder h
  rw [hbefore, ← List.forall₂_reverse_iff, List.reverse_concat] at hentries
  rw [← List.head?_reverse]
  generalize S.reverse = reversed at hentries
  obtain _ | ⟨hlast, -⟩ := hentries
  have hresult := formatNumber_of_entry hlast ((evaluate_ungrouped env e).trans hv)
  rw [htext] at hresult
  exact congrArg some (Except.ok.inj hresult).symm

variable {limit limit' : Int} {text text' : String} {r : CalculationResult}

/-- The trace of a result: the first entries are kept, and the others are counted. -/
theorem steps_of_calculate (h : (env.withTrace true).calculate e limit text = .ok r) :
    r.steps = (env.steps ((env.withTrace true).walk e).operations).take limit.toNat ∧
      r.dropped = (env.steps ((env.withTrace true).walk e).operations).length - limit.toNat := by
  obtain ⟨-, -, hsteps, hdropped, -⟩ := calculate_eq_ok_iff.1 h
  rw [recorded_traced] at hsteps hdropped
  exact ⟨hsteps, hdropped⟩

theorem exists_calculate_of_limit (h : env.calculate e limit text = .ok r) (limit' : Int)
    (text' : String) : ∃ r', env.calculate e limit' text' = .ok r' ∧ r'.value = r.value ∧
      r'.formatted = r.formatted := by
  obtain ⟨hv, htext, -⟩ := calculate_eq_ok_iff.1 h
  rw [calculate_of_evaluate hv, htext]
  exact ⟨_, rfl, rfl, rfl⟩

/-- The trace of a result is made up of the entries of the operations in post-order, of which the
recorder keeps the first and counts the others. The value does not depend on how many are kept, and
if all are, the last of them shows the result of an operation. -/
theorem calculate_trace {symbols : SymbolTable} {settings : ArithmeticSettings}
    (h : Environment.calculate ⟨symbols, settings, true⟩ e limit text = .ok r) :
    ∃ S, (e.postorder.filter Expr.isOperation).mapM
        (Environment.entry ⟨symbols, settings, false⟩) = .ok S ∧
      r.steps = S.take limit.toNat ∧ r.stepCount = min limit.toNat S.length ∧
      r.dropped = S.length - r.stepCount ∧
      Environment.evaluate ⟨symbols, settings, false⟩ e = .ok r.value ∧
      (∀ limit' text', ∃ r',
        Environment.calculate ⟨symbols, settings, true⟩ e limit' text' = .ok r' ∧
        r'.value = r.value ∧ r'.formatted = r.formatted ∧ r'.steps = S.take limit'.toNat ∧
        (limit' ≤ limit → r'.steps <+: r.steps) ∧ (limit ≤ limit' → r.steps <+: r'.steps)) ∧
      (S.length ≤ limit.toNat → e.ungrouped.isOperation = true →
        r.steps.getLast?.map Step.result = some r.formatted) := by
  let env : Environment := ⟨symbols, settings, false⟩
  have hcalculate : (env.withTrace true).calculate e limit text = .ok r := h
  obtain ⟨hv, htext, -⟩ := calculate_eq_ok_iff.1 hcalculate
  obtain ⟨hsteps, hdropped⟩ := steps_of_calculate hcalculate
  have hentries := steps_of_evaluate hv
  have hplain : env.evaluate e = .ok r.value := evaluate_untraced hv
  have hothers (limit' : Int) (text' : String) :
      ∃ r', (env.withTrace true).calculate e limit' text' = .ok r' ∧ r'.value = r.value ∧
        r'.formatted = r.formatted ∧
        r'.steps = (env.steps ((env.withTrace true).walk e).operations).take limit'.toNat := by
    obtain ⟨r', hr', hvalue, hformatted⟩ := exists_calculate_of_limit hcalculate limit' text'
    exact ⟨r', hr', hvalue, hformatted, (steps_of_calculate hr').1⟩
  generalize env.steps ((env.withTrace true).walk e).operations = S at *
  have hcount : r.stepCount = min limit.toNat S.length := by
    rw [CalculationResult.stepCount, hsteps, List.length_take]
  refine ⟨S, mapM_eq_ok_iff.2 hentries, hsteps, hcount, by omega, hplain,
    fun limit' text' => ?_, fun hroom hoperation => ?_⟩
  · obtain ⟨r', hr', hvalue, hformatted, hsteps'⟩ := hothers limit' text'
    refine ⟨r', hr', hvalue, hformatted, hsteps', fun hle => ?_, fun hle => ?_⟩
    · rw [hsteps, hsteps']
      exact List.take_prefix_take_left (Int.toNat_le_toNat hle)
    · rw [hsteps, hsteps']
      exact List.take_prefix_take_left (Int.toNat_le_toNat hle)
  · rw [hsteps, List.take_of_length_le hroom]
    have hshown := ArithmeticSettings.formatNumber_of_rounded (applyFormat_of_evaluate hplain)
    exact result_getLast_of_entries hentries hoperation hplain (hshown.trans htext)

/-- The trace of `(-2 + 3!)` has three steps, the last of which shows the result. -/
theorem calculate_trace_brackets :
    ∃ (r : CalculationResult) (S : List Step),
      Environment.calculate ⟨.empty 0, {}, true⟩ (.group (.binary (some .add)
        (.negation (.number 2.0 none) none) (.factorial (.number 3.0 none) none) false none) none)
        3 "" = .ok r ∧
      r.steps = S.take 3 ∧ S.length = 3 ∧ r.dropped = S.length - r.stepCount ∧
      r.steps.getLast?.map Step.result = some r.formatted := by
  have hok : (Environment.calculate ⟨.empty 0, {}, true⟩ (.group (.binary (some .add)
      (.negation (.number 2.0 none) none) (.factorial (.number 3.0 none) none) false none) none)
      3 "").isOk = true := by decide +kernel
  cases h : Environment.calculate ⟨.empty 0, {}, true⟩ (.group (.binary (some .add)
      (.negation (.number 2.0 none) none) (.factorial (.number 3.0 none) none) false none) none)
      3 "" with
  | error f =>
    rw [h] at hok
    cases hok
  | ok r =>
    obtain ⟨S, hS, hsteps, -, hdropped, -, -, hlast⟩ := calculate_trace h
    have hlength : S.length = 3 := (mapM_eq_ok_iff.1 hS).length_eq.symm
    exact ⟨r, S, rfl, hsteps, hlength, hdropped, hlast hlength.le rfl⟩

end Environment

end Calculator
