import Calculator.Proofs.Evaluation.Trace
import Calculator.Proofs.Grammar.Faithful
import Calculator.Proofs.Session.Closed

/-!
# Steps can be checked again

The expression of a step is the printed node of its operation. It is read as a tree that evaluates
as the node does, and the value of the node is rounded, so evaluating the expression by itself shows
the result of the step.
-/

namespace Calculator

variable {c : Category} {ts us : List Token} {e n : Expr} {text : String} {p : Parsed}
  {o : Operation} {st : Step}

theorem Expr.nodes_subset_of_mem (h : n ∈ e.nodes) : n.nodes ⊆ e.nodes := by
  induction e using Expr.byChildren with
  | node e ih =>
    rw [e.nodes_eq, List.mem_cons, List.mem_flatMap] at h
    rcases h with rfl | ⟨child, hchild, hn⟩
    · exact List.Subset.refl _
    · exact fun m hm => mem_nodes_of_mem_children hchild (ih child hchild hn hm)

theorem Expr.children_ne_nil_of_isOperation (h : n.isOperation = true) : n.children ≠ [] := by
  cases n with
  | binary | call | factorial => exact List.cons_ne_nil _ _
  | number | named | group | blank => cases h

theorem Expr.AllFinite.of_mem_nodes (h : e.AllFinite) (hn : n ∈ e.nodes) : n.AllFinite :=
  fun v span hv => h v span (Expr.nodes_subset_of_mem hn hv)

/-- A phrase with finite numbers is printed to a text that a large enough pool reads as a tree with
the same evaluation. -/
theorem Derives.exists_reading (h : Derives c us n) (hn : NamesRead us) (hf : n.AllFinite) :
    ∃ printed t, n.print = .ok printed ∧
      (∀ capacity : Int, n.reread.size ≤ capacity →
        Calculator.parse printed capacity = .ok ⟨t, t.size⟩) ∧
      ∀ env : Environment, Alike (env.evaluate t) (env.evaluate n) := by
  obtain ⟨printed, hprint, hspells⟩ := Expr.spells_print (h.printable hn hf)
  obtain ⟨t, hbare, hparse⟩ := hspells.parse
  refine ⟨printed, t, hprint, fun capacity => (hparse capacity).1, fun env => ?_⟩
  have hreread : Alike (env.walk n.reread).outcome (env.walk n).outcome :=
    Environment.alike_walk_reread h hn hf
  rw [← hbare] at hreread
  exact (Environment.alike_walk_bare t).symm.trans hreread

namespace Session

variable {s : Session}

/-- A session with the same settings and variables and enough nodes evaluates the expression of the
step and shows its result. -/
def Rechecks (s : Session) (st : Step) : Prop :=
  ∃ n : Nat, ∀ s' : Session, s'.settings = s.settings → s'.symbols = s.symbols →
    (n : Int) ≤ s'.maxNodes → ∀ trace,
      ∃ r, (s'.evaluate st.expression trace).value = .ok r ∧ r.formatted = st.result

/-- The step of an operation can be checked again. -/
theorem rechecks_of_mem_operations (h : (s.parse text).value = .ok p) (hf : p.tree.AllFinite)
    (ho : o ∈ ((s.environment true).walk p.tree).operations)
    (hst : o.step s.settings = .ok st) : s.Rechecks st := by
  obtain ⟨hnode, hoperation, hnoted⟩ := Environment.node_of_mem_operations ho
  obtain ⟨-, hexpression, hresult⟩ := Operation.step_eq_ok_iff.1 hst
  have hvalue : (s.environment true).evaluate o.node = .ok o.value :=
    hnoted.trans (Environment.outcome_noted_eq_ok_iff.2 ⟨rfl, fun _ => ⟨st, hst⟩⟩)
  rw [value_parse] at h
  obtain ⟨c, us, hus, hd⟩ :=
    isPhraseIn_of_mem_nodes h hnode (Expr.children_ne_nil_of_isOperation hoperation)
  obtain ⟨printed, t, hprint, hparse, halike⟩ := hd.exists_reading
    (fun t ht => namesRead_tokenize text t (hus.subset ht)) (hf.of_mem_nodes hnode)
  obtain rfl : printed = st.expression := Except.ok.inj (hprint.symm.trans hexpression)
  refine ⟨o.node.reread.size, fun s' hsettings hsymbols hroom trace => ?_⟩
  have henv : s'.environment trace = (s.environment true).withTrace trace := by
    rw [environment, hsettings, hsymbols]
    rfl
  have hnode' : (s'.environment trace).evaluate o.node = .ok o.value := by
    rw [henv]
    cases trace with
    | true => exact hvalue
    | false => exact Environment.evaluate_untraced hvalue
  have htree : (s'.environment trace).evaluate t = .ok o.value := by
    rcases (halike (s'.environment trace)).cases with ⟨v, ht, hv⟩ | ⟨f, f', -, hf', -⟩
    · rw [ht, ← hv, hnode']
    · rw [hnode'] at hf'
      cases hf'
  have hshown : (s'.environment trace).settings.textOf o.value = .ok st.result := by
    rw [← ArithmeticSettings.formatNumber_of_rounded (Environment.applyFormat_of_evaluate hnode')]
    rw [henv]
    exact hresult
  have hread : (s'.parse st.expression).value = .ok ⟨t, t.size⟩ := by
    rw [value_parse]
    exact hparse s'.maxNodes hroom
  rw [value_evaluate hread, Environment.calculate_of_evaluate htree, hshown]
  exact ⟨_, rfl, rfl⟩

/-- Every step that is recorded while a text with finite literals is evaluated can be checked again,
also if the evaluation fails later on; the steps of a result are among these. -/
theorem recorded_steps_recheck (h : (s.parse text).value = .ok p) (hf : p.tree.AllFinite) :
    (∀ limit, ∀ st ∈ ((s.environment true).recorded ((s.environment true).walk p.tree) limit).steps,
      s.Rechecks st) ∧
    ∀ r, (s.evaluate text true).value = .ok r → ∀ st ∈ r.steps, s.Rechecks st := by
  have hrecorded (limit : Int) : ∀ st ∈ ((s.environment true).recorded
      ((s.environment true).walk p.tree) limit).steps, s.Rechecks st := by
    intro st hst
    have htrace := (s.environment true).recorded_traced ((s.environment true).walk p.tree) limit
    change (s.environment true).recorded _ limit = _ at htrace
    rw [htrace] at hst
    obtain ⟨o, ho, hstep⟩ := List.mem_filterMap.1 (List.mem_of_mem_take hst)
    exact rechecks_of_mem_operations h hf ho (toOption_eq_some_iff.1 hstep)
  refine ⟨hrecorded, fun r hr st hst => ?_⟩
  rw [value_evaluate h] at hr
  obtain ⟨-, -, hsteps, -⟩ := Environment.calculate_eq_ok_iff.1 (mapError_eq_ok_iff.1 hr)
  exact hrecorded s.maxSteps st (hsteps ▸ hst)

/-- With two decimal places `-(2/3)/7*3!` has five steps, all of which can be checked again. -/
theorem recorded_steps_recheck_rounded :
    ∃ r, ((⟨⟨.round, 2, false⟩, .empty 0, 20, 40⟩ : Session).evaluate "-(2/3)/7*3!" true).value =
        .ok r ∧ r.steps.length = 5 ∧
      ∀ st ∈ r.steps, (⟨⟨.round, 2, false⟩, .empty 0, 20, 40⟩ : Session).Rechecks st := by
  have hn : NumeralsFinite "-(2/3)/7*3!" := by
    unfold NumeralsFinite
    decide +kernel
  have hlength : ((⟨⟨.round, 2, false⟩, .empty 0, 20, 40⟩ : Session).evaluate "-(2/3)/7*3!"
      true).value.toOption.map CalculationResult.stepCount = some 5 := by decide +kernel
  cases hp : ((⟨⟨.round, 2, false⟩, .empty 0, 20, 40⟩ : Session).parse "-(2/3)/7*3!").value with
  | error e =>
    rw [value_evaluate_of_error hp] at hlength
    cases hlength
  | ok p =>
    cases hr : ((⟨⟨.round, 2, false⟩, .empty 0, 20, 40⟩ : Session).evaluate "-(2/3)/7*3!"
        true).value with
    | error f =>
      rw [hr] at hlength
      cases hlength
    | ok r =>
      rw [hr] at hlength
      have htree := hp
      rw [value_parse] at htree
      have hf := (derives_of_parse htree).2.allFinite hn
      exact ⟨r, rfl, Option.some.inj hlength, (recorded_steps_recheck hp hf).2 r hr⟩

end Session

end Calculator
