import Calculator.Proofs.Evaluation.Alike
import Calculator.Proofs.Outcome
import Calculator.Proofs.Settings.Idempotent

/-!
# What a node does by itself

The walk of a node goes through the children from left to right and then does what the node does by
itself with their values. An operator, a function or a factorial carries out an operation there, and
nothing else does. A trace changes nothing but whether the operation has to be described.
-/

namespace Calculator

/-- What a node has whenever its children have it, all nodes have. -/
@[elab_as_elim]
theorem Expr.byChildren {motive : Expr → Prop}
    (node : ∀ e, (∀ child ∈ e.children, motive child) → motive e) (e : Expr) : motive e := by
  induction e with
  | binary op left right unary span ihl ihr => exact node _ (by simp [children, ihl, ihr])
  | call _ _ _ ih | factorial _ _ ih | group _ _ ih => exact node _ (by simp [children, ih])
  | number | named | blank => exact node _ nofun

theorem Expr.nodes_eq (e : Expr) : e.nodes = e :: e.children.flatMap nodes := by
  cases e <;> simp [nodes, children]

theorem Expr.mem_nodes_self (e : Expr) : e ∈ e.nodes := by
  rw [nodes_eq]
  exact List.mem_cons_self

theorem Expr.mem_nodes_of_mem_children {e child n : Expr} (hc : child ∈ e.children)
    (hn : n ∈ child.nodes) : n ∈ e.nodes := by
  rw [nodes_eq]
  exact List.mem_cons_of_mem _ (List.mem_flatMap.2 ⟨child, hc, hn⟩)

def Expr.isOperation : Expr → Bool
  | binary .. | call .. | factorial .. => true
  | number .. | named .. | group .. | blank _ => false

def Expr.wording : Expr → List String → String
  | binary (some op) _ _ unary _, [left, right] =>
    if unary then s!"Negate {right}" else op.describe left right
  | call f _ _, [argument] => s!"Calculate {f.name} of {argument}"
  | factorial _ _, [operand] => s!"Calculate factorial of {operand}"
  | _, _ => ""

theorem Walk.andThen_leaf_ok (w : Walk) : (w.andThen fun v => .leaf (.ok v)) = w := by
  obtain ⟨operations, outcome⟩ := w
  cases outcome with
  | ok v => simp [andThen, leaf]
  | error f => rfl

namespace Environment

def withTrace (env : Environment) (traced : Bool) : Environment := { env with traced }

/-- What a node does by itself with the values of its children. -/
def own (env : Environment) (e : Expr) (vs : List Float) : Walk :=
  let left := vs.headD 0.0
  let right := vs.getD 1 0.0
  match e with
  | .number v _ => .leaf (.ok (env.settings.applyFormat v))
  | .named name span => .leaf ((env.symbols.resolve name span).map env.settings.applyFormat)
  | .group _ _ => .leaf (.ok left)
  | .binary none _ _ _ _ => .leaf (.error (.fault .unknownOperator))
  | .binary (some op) _ _ unary span =>
    env.perform (op.apply env.settings left right span) (Text.lowercase op.operationName) span
      (.binary e op unary left right)
  | .call f _ span => env.perform (f.apply left span) f.name span (.call e f left)
  | .factorial _ span =>
    env.perform (Calculator.factorial left span) "factorial" span (.factorial e left)
  | .blank _ => .leaf (.error (.fault .unknownNode))

/-- Walks through the nodes one after the other, and then goes on with their values. -/
def walkAll (env : Environment) : List Expr → (List Float → Walk) → Walk
  | [], next => next []
  | e :: es, next => (env.walk e).andThen fun v => env.walkAll es fun vs => next (v :: vs)

variable {env : Environment} {e : Expr} {es : List Expr} {v : Float} {vs : List Float}
  {o : Operation}

theorem walk_eq (env : Environment) (e : Expr) :
    env.walk e = env.walkAll e.children (env.own e) := by
  cases e with
  | number | named | call | factorial | blank => rfl
  | group inner span => exact (env.walk inner).andThen_leaf_ok.symm
  | binary op => cases op <;> rfl

theorem outcome_walkAll (env : Environment) (es : List Expr) (next : List Float → Walk) :
    (env.walkAll es next).outcome = (es.mapM env.evaluate).bind fun vs => (next vs).outcome := by
  induction es generalizing next with
  | nil => rfl
  | cons e es ih =>
    rw [walkAll, Walk.outcome_andThen, List.mapM_cons]
    simp only [ih]
    change Except.bind (env.evaluate e) _ = _
    cases env.evaluate e with
    | error f => rfl
    | ok v => cases es.mapM env.evaluate <;> rfl

/-- A node is evaluated by evaluating its children in their order and then doing what the node does
by itself. -/
theorem evaluate_eq (env : Environment) (e : Expr) :
    env.evaluate e = (e.children.mapM env.evaluate).bind fun vs => (env.own e vs).outcome := by
  rw [evaluate, walk_eq, outcome_walkAll]

theorem evaluate_eq_ok_iff : env.evaluate e = .ok v ↔
    ∃ vs, List.Forall₂ (fun e v => env.evaluate e = .ok v) e.children vs ∧
      (env.own e vs).outcome = .ok v := by
  rw [evaluate_eq]
  cases hvs : e.children.mapM env.evaluate with
  | error f =>
    refine ⟨nofun, fun ⟨vs, h, _⟩ => ?_⟩
    rw [mapM_eq_ok_iff.2 h] at hvs
    cases hvs
  | ok vs =>
    refine ⟨fun h => ⟨vs, mapM_eq_ok_iff.1 hvs, h⟩, fun ⟨ws, h, hown⟩ => ?_⟩
    rw [mapM_eq_ok_iff.2 h] at hvs
    cases hvs
    exact hown

theorem operations_walkAll {next : List Float → Walk}
    (h : List.Forall₂ (fun e v => env.evaluate e = .ok v) es vs) :
    (env.walkAll es next).operations =
      (es.flatMap fun e => (env.walk e).operations) ++ (next vs).operations := by
  induction h generalizing next with
  | nil => rfl
  | cons he hes ih =>
    have hwalk : (env.walk _).outcome = .ok _ := he
    rw [walkAll, Walk.andThen, hwalk]
    simp only [ih, List.flatMap_cons, List.append_assoc]

/-- An operation of a walk belongs to a child, or to the node itself. -/
theorem mem_operations_walkAll {next : List Float → Walk}
    (h : o ∈ (env.walkAll es next).operations) :
    (∃ e ∈ es, o ∈ (env.walk e).operations) ∨
      ∃ vs, es.mapM env.evaluate = .ok vs ∧ o ∈ (next vs).operations := by
  induction es generalizing next with
  | nil => exact .inr ⟨[], rfl, h⟩
  | cons e es ih =>
    rw [walkAll, Walk.andThen] at h
    cases he : (env.walk e).outcome with
    | error f =>
      rw [he] at h
      exact .inl ⟨e, by simp, h⟩
    | ok v =>
      rw [he] at h
      have hvalue : env.evaluate e = .ok v := he
      rcases List.mem_append.1 h with h | h
      · exact .inl ⟨e, by simp, h⟩
      · rcases ih h with ⟨e', he', h⟩ | ⟨vs, hvs, h⟩
        · exact .inl ⟨e', by simp [he'], h⟩
        · refine .inr ⟨v :: vs, ?_, h⟩
          rw [List.mapM_cons, hvalue, hvs]
          rfl

theorem operations_noted (env : Environment) (o : Operation) : (env.noted o).operations = [o] := by
  unfold noted
  split
  · split <;> rfl
  · rfl

theorem outcome_noted_eq_ok_iff : (env.noted o).outcome = .ok v ↔
    o.value = v ∧ (env.traced = true → ∃ step, o.step env.settings = .ok step) := by
  unfold noted
  cases env.traced with
  | false => simp
  | true => cases o.step env.settings <;> simp

/-- An operation is carried out with a rounded value, or there is a failure, with a trace or
without. -/
theorem perform_cases (env : Environment) (raw : Except Failure Float) (name : String)
    (span : Option Span) (operation : Float → Operation) :
    (∃ v, env.settings.applyFormat v = v ∧ ∀ traced,
      (env.withTrace traced).perform raw name span operation =
        (env.withTrace traced).noted (operation v)) ∨
    ∃ f, ∀ traced, (env.withTrace traced).perform raw name span operation = .leaf (.error f) := by
  cases raw with
  | error f => exact .inr ⟨f, fun _ => rfl⟩
  | ok raw =>
    simp only [perform, finish]
    by_cases hfinite : raw.isFinite = true
    · refine .inl ⟨_, env.settings.applyFormat_applyFormat raw, fun _ => ?_⟩
      simp only [if_pos hfinite]
      rfl
    · refine .inr ⟨.error (.of (.overflow name) span), fun _ => ?_⟩
      simp only [if_neg hfinite]
      rfl

end Environment

/-- The operation is that of a node with the given values of its children: it is described by the
texts of the values, and has a rounded value itself. -/
structure Operation.IsOf (o : Operation) (settings : ArithmeticSettings) (e : Expr)
    (vs : List Float) : Prop where
  node : o.node = e
  isOperation : e.isOperation = true
  rounded : settings.applyFormat o.value = o.value
  described : o.describe settings = (vs.mapM settings.formatNumber).map e.wording

/-- What a node does by itself with the given values of its children, whether there is a trace or
not. -/
inductive Environment.OwnCase (env : Environment) (e : Expr) (vs : List Float) : Prop where
  /-- It carries out its operation. -/
  | operation (o : Operation) (of : o.IsOf env.settings e vs)
      (own : ∀ traced, (env.withTrace traced).own e vs = (env.withTrace traced).noted o)
  /-- It yields a value without an operation, which is rounded or comes from a child, or fails. -/
  | leaf (outcome : Except Failure Float)
      (own : ∀ traced, (env.withTrace traced).own e vs = .leaf outcome)
      (value : ∀ v, outcome = .ok v →
        e.isOperation = false ∧ (env.settings.applyFormat v = v ∨ v ∈ vs))

namespace Environment

variable {env : Environment} {e : Expr} {vs : List Float}

theorem OwnCase.of_perform (raw : Except Failure Float) (name : String) (span : Option Span)
    (operation : Float → Operation)
    (hown : ∀ traced, (env.withTrace traced).own e vs =
      (env.withTrace traced).perform raw name span operation)
    (hof : ∀ v, env.settings.applyFormat v = v → (operation v).IsOf env.settings e vs) :
    env.OwnCase e vs := by
  rcases env.perform_cases raw name span operation with ⟨v, hv, hnoted⟩ | ⟨f, hfails⟩
  · exact .operation (operation v) (hof v hv) fun traced => (hown traced).trans (hnoted traced)
  · exact .leaf (.error f) (fun traced => (hown traced).trans (hfails traced)) nofun

/-- Every node does one of the two. -/
theorem own_cases (env : Environment) (h : vs.length = e.children.length) : env.OwnCase e vs := by
  cases e with
  | number v span =>
    refine .leaf (.ok (env.settings.applyFormat v)) (fun _ => rfl) fun w hw => ⟨rfl, .inl ?_⟩
    rw [← Except.ok.inj hw]
    exact env.settings.applyFormat_applyFormat v
  | named name span =>
    refine .leaf ((env.symbols.resolve name span).map env.settings.applyFormat) (fun _ => rfl)
      fun w hw => ⟨rfl, .inl ?_⟩
    cases hv : env.symbols.resolve name span with
    | error f =>
      rw [hv] at hw
      cases hw
    | ok v =>
      rw [hv] at hw
      rw [← Except.ok.inj hw]
      exact env.settings.applyFormat_applyFormat v
  | group inner span =>
    obtain ⟨v, rfl⟩ := List.length_eq_one_iff.1 h
    refine .leaf (.ok v) (fun _ => rfl) fun w hw => ⟨rfl, .inr ?_⟩
    rw [← Except.ok.inj hw]
    exact List.mem_singleton_self v
  | binary op left right unary span =>
    cases op with
    | none => exact .leaf (.error (.fault .unknownOperator)) (fun _ => rfl) nofun
    | some op =>
      obtain ⟨l, r, rfl⟩ := List.length_eq_two.1 h
      refine .of_perform (op.apply env.settings l r span) (Text.lowercase op.operationName) span
        (.binary (.binary (some op) left right unary span) op unary l r) (fun _ => rfl)
        fun v hv => ⟨rfl, rfl, hv, ?_⟩
      simp only [Operation.describe, List.mapM_cons, List.mapM_nil]
      cases env.settings.formatNumber l <;> cases env.settings.formatNumber r <;> rfl
  | call f argument span =>
    obtain ⟨x, rfl⟩ := List.length_eq_one_iff.1 h
    refine .of_perform (f.apply x span) f.name span (.call (.call f argument span) f x)
      (fun _ => rfl) fun v hv => ⟨rfl, rfl, hv, ?_⟩
    simp only [Operation.describe, List.mapM_cons, List.mapM_nil]
    cases env.settings.formatNumber x <;> rfl
  | factorial operand span =>
    obtain ⟨x, rfl⟩ := List.length_eq_one_iff.1 h
    refine .of_perform (Calculator.factorial x span) "factorial" span
      (.factorial (.factorial operand span) x) (fun _ => rfl) fun v hv => ⟨rfl, rfl, hv, ?_⟩
    simp only [Operation.describe, List.mapM_cons, List.mapM_nil]
    cases env.settings.formatNumber x <;> rfl
  | blank span => exact .leaf (.error (.fault .unknownNode)) (fun _ => rfl) nofun

/-- An operation of a walk is about a node of the tree, and what the evaluation of this node comes
to is decided by noting the operation. -/
theorem node_of_mem_operations {o : Operation} (h : o ∈ (env.walk e).operations) :
    o.node ∈ e.nodes ∧ o.node.isOperation = true ∧
      env.evaluate o.node = (env.noted o).outcome := by
  induction e using Expr.byChildren with
  | node e ih =>
    rw [walk_eq] at h
    rcases mem_operations_walkAll h with ⟨child, hchild, h⟩ | ⟨vs, hvs, h⟩
    · obtain ⟨hnode, hrest⟩ := ih child hchild h
      exact ⟨Expr.mem_nodes_of_mem_children hchild hnode, hrest⟩
    · have hlength := (mapM_eq_ok_iff.1 hvs).length_eq.symm
      cases env.own_cases hlength with
      | leaf outcome own value =>
        have hown : env.own e vs = .leaf outcome := own env.traced
        rw [hown] at h
        cases h
      | operation o' of own =>
        have hown : env.own e vs = env.noted o' := own env.traced
        rw [hown, operations_noted, List.mem_singleton] at h
        subst h
        rw [of.node]
        refine ⟨e.mem_nodes_self, of.isOperation, ?_⟩
        rw [evaluate_eq, hvs, ← hown]
        rfl

end Environment

end Calculator
