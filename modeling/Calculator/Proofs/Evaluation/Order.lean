import Calculator.Proofs.Evaluation.Node

/-!
# The order of an evaluation

A tree is evaluated in post-order: the operands of a node from left to right, and then the node. A
failing evaluation fails at the first node in this order that fails by itself, and an error has the
place of this node.
-/

namespace Calculator

/-- The nodes of a tree, each behind those below it, from left to right. -/
def Expr.postorder : Expr → List Expr
  | e@(binary _ left right _ _) => left.postorder ++ right.postorder ++ [e]
  | e@(call _ argument _) => argument.postorder ++ [e]
  | e@(factorial operand _) => operand.postorder ++ [e]
  | e@(group inner _) => inner.postorder ++ [e]
  | e => [e]

namespace Expr

theorem postorder_eq (e : Expr) : e.postorder = e.children.flatMap postorder ++ [e] := by
  cases e <;> simp [postorder, children]

/-- The post-order has the nodes of the tree, each as often as the tree. -/
theorem postorder_perm_nodes (e : Expr) : e.postorder.Perm e.nodes := by
  induction e with
  | binary op left right unary span ihl ihr =>
    exact (List.perm_append_singleton _ _).trans ((ihl.append ihr).cons _)
  | call _ _ _ ih | factorial _ _ ih | group _ _ ih =>
    exact (List.perm_append_singleton _ _).trans (ih.cons _)
  | number | named | blank => exact List.Perm.refl _

end Expr

def FailsAt {α : Type} (span : Option Span) (r : Except Failure α) : Prop :=
  ∀ e, r = .error (.error e) → e.span = span

namespace FailsAt

variable {α β : Type} {span : Option Span}

theorem ok (a : α) : FailsAt span (.ok a) := by
  intro e he
  cases he

theorem fault (f : Fault) : FailsAt span (.error (.fault f) : Except Failure α) := by
  intro e he
  cases he

theorem failAt (cause : Cause) : FailsAt span (failAt cause span : Except Failure α) := by
  intro e he
  cases he
  rfl

theorem map {r : Except Failure α} (h : FailsAt span r) (f : α → β) : FailsAt span (r.map f) := by
  cases r with
  | ok a => exact ok (f a)
  | error failure =>
    intro e he
    cases he
    exact h e rfl

end FailsAt

section

variable (v w : Float) (span : Option Span)

theorem failsAt_power : FailsAt span (power v w span) := by
  simp only [power]
  split
  · exact .ok _
  · exact .failAt _

theorem failsAt_factorial : FailsAt span (factorial v span) := by
  unfold factorial
  split
  · exact .failAt _
  · split
    · exact .fault _
    · split
      · exact .fault _
      · dsimp only
        split
        · exact .failAt _
        · split
          · exact .failAt _
          · exact .ok _

theorem FunctionKind.failsAt_apply (f : FunctionKind) : FailsAt span (f.apply v span) := by
  cases f with
  | sin | cos | tan =>
    simp only [apply, onAngles]
    split
    · exact .fault _
    · exact .ok _
  | log | ln | sqrt =>
    simp only [apply]
    split
    · exact .failAt _
    · exact .ok _

theorem Operator.failsAt_apply (settings : ArithmeticSettings) (op : Operator) :
    FailsAt span (op.apply settings v w span) := by
  cases op with
  | add | sub | mul => exact .ok _
  | pow => exact failsAt_power v w span
  | div =>
    simp only [apply]
    split
    · split
      · exact .failAt _
      · exact .fault _
      · exact .fault _
    · exact .ok _

theorem SymbolTable.failsAt_resolve (t : SymbolTable) (name : String) :
    FailsAt span (t.resolve name span) := by
  simp only [resolve]
  split
  · exact .ok _
  · exact .failAt _

end

namespace Environment

variable {env : Environment} {e n left right : Expr} {f : Failure} {v : Float}

theorem failsAt_perform {raw : Except Failure Float} {span : Option Span} (h : FailsAt span raw)
    (name : String) (operation : Float → Operation) :
    FailsAt span (env.perform raw name span operation).outcome := by
  unfold perform
  split
  · exact h
  · split
    · next hfinish =>
      rw [← hfinish, finish]
      split
      · exact .ok _
      · exact .failAt _
    · unfold noted
      split
      · split
        · exact .ok _
        · exact .fault _
      · exact .ok _

theorem failsAt_own (env : Environment) (e : Expr) (vs : List Float) :
    FailsAt e.span (env.own e vs).outcome := by
  cases e with
  | number v span => exact .ok _
  | named name span => exact (env.symbols.failsAt_resolve span name).map _
  | group inner span => exact .ok _
  | binary op left right unary span =>
    cases op with
    | none => exact .fault _
    | some op => exact failsAt_perform (op.failsAt_apply _ _ span _) _ _
  | call f argument span => exact failsAt_perform (f.failsAt_apply _ span) _ _
  | factorial operand span => exact failsAt_perform (failsAt_factorial _ span) _ _
  | blank span => exact .fault _

/-- A node is evaluated by evaluating its children in their order and then doing what the node does
by itself, which fails at the place of the node. -/
theorem exists_own (env : Environment) (e : Expr) :
    ∃ own : List Float → Except Failure Float, (∀ vs, FailsAt e.span (own vs)) ∧
      env.evaluate e = (e.children.mapM env.evaluate).bind own :=
  ⟨fun vs => (env.own e vs).outcome, env.failsAt_own e, env.evaluate_eq e⟩

theorem exists_of_mapM_eq_ok {es : List Expr} {vs : List Float}
    (h : es.mapM env.evaluate = .ok vs) : ∀ e ∈ es, ∃ v, env.evaluate e = .ok v := by
  have hvs := mapM_eq_ok_iff.1 h
  clear h
  induction hvs with
  | nil => nofun
  | cons he _ ih => exact List.forall_mem_cons.2 ⟨⟨_, he⟩, ih⟩

theorem exists_of_mapM_eq_error {es : List Expr} (h : es.mapM env.evaluate = .error f) :
    ∃ before e after, es = before ++ e :: after ∧ (∀ b ∈ before, ∃ v, env.evaluate b = .ok v) ∧
      env.evaluate e = .error f := by
  induction es with
  | nil => cases h
  | cons e es ih =>
    rw [List.mapM_cons] at h
    cases he : env.evaluate e with
    | error f' =>
      rw [he] at h
      cases h
      exact ⟨[], e, es, rfl, nofun, he⟩
    | ok v =>
      cases hes : es.mapM env.evaluate with
      | ok ws =>
        rw [he, hes] at h
        cases h
      | error f' =>
        rw [he, hes] at h
        cases h
        obtain ⟨before, e', after, rfl, hbefore, herror⟩ := ih hes
        exact ⟨e :: before, e', after, rfl, List.forall_mem_cons.2 ⟨⟨v, he⟩, hbefore⟩, herror⟩

theorem exists_value_of_mem_postorder (h : env.evaluate e = .ok v) :
    ∀ n ∈ e.postorder, ∃ w, env.evaluate n = .ok w := by
  induction e using Expr.byChildren generalizing v with
  | node e ih =>
    obtain ⟨own, -, heq⟩ := env.exists_own e
    intro n hn
    rw [e.postorder_eq, List.mem_append, List.mem_flatMap, List.mem_singleton] at hn
    rcases hn with ⟨child, hchild, hn⟩ | rfl
    · cases hvs : e.children.mapM env.evaluate with
      | error f =>
        rw [heq, hvs] at h
        cases h
      | ok vs =>
        obtain ⟨w, hw⟩ := exists_of_mapM_eq_ok hvs child hchild
        exact ih child hchild hw n hn
    · exact ⟨v, h⟩

/-- A failing evaluation fails as the first node in post-order that fails, at the place of this
node. -/
theorem exists_first_failing (h : env.evaluate e = .error f) :
    ∃ before n after, e.postorder = before ++ n :: after ∧
      (∀ m ∈ before, ∃ w, env.evaluate m = .ok w) ∧ env.evaluate n = .error f ∧
      ∀ err, f = .error err → n.span = err.span := by
  induction e using Expr.byChildren generalizing f with
  | node e ih =>
    obtain ⟨own, hown, heq⟩ := env.exists_own e
    rw [e.postorder_eq]
    cases hvs : e.children.mapM env.evaluate with
    | error f' =>
      obtain rfl : f' = f := by
        rw [heq, hvs] at h
        exact Except.error.inj h
      obtain ⟨children, child, later, hsplit, hfirst, hchild⟩ := exists_of_mapM_eq_error hvs
      obtain ⟨before, n, after, hpost, hbefore, hn, hplace⟩ := ih child (by simp [hsplit]) hchild
      refine ⟨children.flatMap Expr.postorder ++ before, n,
        after ++ later.flatMap Expr.postorder ++ [e], ?_, fun m hm => ?_, hn, hplace⟩
      · simp [hsplit, hpost]
      · rcases List.mem_append.1 hm with hm | hm
        · obtain ⟨b, hb, hm⟩ := List.mem_flatMap.1 hm
          obtain ⟨w, hw⟩ := hfirst b hb
          exact exists_value_of_mem_postorder hw m hm
        · exact hbefore m hm
    | ok vs =>
      refine ⟨e.children.flatMap Expr.postorder, e, [], rfl, fun m hm => ?_, h, ?_⟩
      · obtain ⟨b, hb, hm⟩ := List.mem_flatMap.1 hm
        obtain ⟨w, hw⟩ := exists_of_mapM_eq_ok hvs b hb
        exact exists_value_of_mem_postorder hw m hm
      · rintro err rfl
        rw [heq, hvs] at h
        exact (hown vs err h).symm

end Environment

end Calculator
