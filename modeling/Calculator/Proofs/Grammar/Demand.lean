import Calculator.Proofs.Grammar.Supply

/-!
# How many nodes a parse asks for

The nodes that a parse asks for are known before it ends: those that were taken, the one that is due
and those of all open constructs. No construct asks for more when it is closed, and a token adds at
most two. So a step fails in one of two ways: the pool does not hold what was asked for before, or
the token itself is wrong.
-/

namespace Calculator

def MathError.IsNodeLimit (e : MathError) : Prop :=
  e.stage = .parsing ∧ e.kind = some .nodeLimitExceeded

theorem NodePool.isNodeLimit_exhausted (p : NodePool) (span : Option Span) :
    (p.exhausted span).IsNodeLimit := ⟨rfl, rfl⟩

/-- A result has the property `Q`, and an error the property `P`. -/
def Yields {α : Type} (Q : α → Prop) (P : MathError → Prop) : Except MathError α → Prop
  | .ok a => Q a
  | .error e => P e

namespace Yields

variable {α β : Type} {Q Q' : α → Prop} {R : β → Prop} {P P' : MathError → Prop}
  {r : Except MathError α}

theorem bind {f : α → Except MathError β} (h : Yields Q P r) (hf : ∀ a, Q a → Yields R P (f a)) :
    Yields R P (r >>= f) := by
  cases r with
  | ok a => exact hf a h
  | error e => exact h

theorem mono (h : Yields Q P r) (hq : ∀ a, Q a → Q' a) (hp : ∀ e, P e → P' e) :
    Yields Q' P' r := by
  cases r with
  | ok a => exact hq a h
  | error e => exact hp e h

theorem of_error {e : MathError} (h : Yields Q P r) (hr : r = .error e) : P e := by
  subst hr
  exact h

theorem of_ok {a : α} (h : Yields Q P r) (hr : r = .ok a) : Q a := by
  subst hr
  exact h

end Yields

def Frame.nodes : Frame → Nat
  | .negation _ => 2
  | .sum .. | .product .. | .power _ | .group _ | .call .. => 1

theorem Frame.reserved_le_nodes (frame : Frame) : frame.reserved ≤ frame.nodes := by
  cases frame <;> simp [reserved, nodes]

namespace ParserState

def pending (stack : List Frame) : Nat := (stack.map Frame.nodes).sum

@[simp]
theorem pending_cons (frame : Frame) (stack : List Frame) :
    pending (frame :: stack) = frame.nodes + pending stack := by
  simp [pending]

theorem reserved_le_pending (stack : List Frame) : reserved stack ≤ pending stack := by
  induction stack with
  | nil => exact Nat.le_refl 0
  | cons frame stack ih =>
    rw [reserved, pending_cons]
    exact Nat.add_le_add frame.reserved_le_nodes ih

/-- The nodes that are taken in any case once the tokens up to here have been read. -/
def demand (s : ParserState) : Nat := s.pool.count + s.due.nodes + pending s.stack

variable {s s' : ParserState} {t : Token} {strength : Nat} {stack : List Frame} {e : Expr}
  {pool : NodePool} {frame : Frame}

def TooSmall (pool : NodePool) (demand : Nat) (e : MathError) : Prop :=
  e.IsNodeLimit ∧ pool.capacity < demand

theorem TooSmall.mono {m n : Nat} {err : MathError} (h : TooSmall pool m err) (hle : m ≤ n) :
    TooSmall pool n err := by
  obtain ⟨hlimit, hlt⟩ := h
  exact ⟨hlimit, by omega⟩

theorem yields_take (pool : NodePool) (span : Option Span) :
    Yields (fun taken => taken = pool.grown 1) (TooSmall pool (pool.count + 1))
      (pool.take span) := by
  unfold NodePool.take
  split
  · next h => exact ⟨pool.isNodeLimit_exhausted span, by omega⟩
  · exact rfl

theorem yields_reserve (pool : NodePool) (n : Nat) (span : Option Span) :
    Yields (fun _ => True) (TooSmall pool (pool.count + n)) (pool.reserve n span) := by
  unfold NodePool.reserve
  split
  · next h => exact ⟨pool.isNodeLimit_exhausted span, h⟩
  · trivial

theorem yields_build_joined (op : Operator) (left : Expr) :
    Yields (fun built => built.2 = pool.grown 1) (TooSmall pool (pool.count + 1))
      (build.binary pool e op left) :=
  (yields_take pool _).bind fun _ h => h

theorem yields_build (hs : 1 ≤ frame.strength) :
    Yields (fun built => built.2 = pool.grown frame.nodes)
      (TooSmall pool (pool.count + frame.nodes)) (build pool e frame) := by
  cases frame with
  | sum op left | product op left => exact yields_build_joined op left
  | power base => exact yields_build_joined .pow base
  | negation minus =>
    refine ((yields_take pool _).mono (fun _ h => h) fun _ h => h.mono (Nat.le_succ _)).bind ?_
    rintro _ rfl
    refine ((yields_take (pool.grown 1) _).mono (fun _ h => h) fun _ h => h).bind ?_
    rintro _ rfl
    exact NodePool.grown_grown pool 1 1
  | group | call => simp [Frame.strength] at hs

theorem yields_unwind (hs : 1 ≤ strength) :
    Yields (fun r => r.2.2.capacity = pool.capacity ∧
        r.2.2.count + pending r.1 = pool.count + pending stack)
      (TooSmall pool (pool.count + pending stack)) (unwind strength stack e pool) := by
  induction stack generalizing e pool with
  | nil => exact ⟨rfl, rfl⟩
  | cons frame stack ih =>
    rw [unwind]
    split
    · next hle =>
      refine ((yields_build (Nat.le_trans hs hle)).mono (fun _ h => h) ?_).bind ?_
      · intro _ h
        refine h.mono ?_
        rw [pending_cons]
        omega
      · rintro ⟨tree, pool'⟩ rfl
        refine ih.mono ?_ ?_
        · rintro r ⟨hcap, hcount⟩
          exact ⟨hcap, by rw [hcount, pending_cons, NodePool.count_grown, Nat.add_assoc]⟩
        · rintro _ ⟨hlimit, hlt⟩
          rw [NodePool.count_grown, NodePool.capacity_grown, Nat.add_assoc] at hlt
          exact ⟨hlimit, by rwa [pending_cons]⟩
    · exact ⟨rfl, rfl⟩

theorem yields_settle (s : ParserState) :
    Yields (fun s' => s'.pool.capacity = s.pool.capacity ∧ s'.demand = s.demand ∧
        s'.due = .nothing)
      (TooSmall s.pool s.demand) s.settle := by
  unfold settle
  split
  · next hd => exact ⟨rfl, rfl, hd⟩
  · next span hd =>
    refine ((yields_take s.pool span).mono (fun _ h => h) ?_).bind ?_
    · intro _ h
      refine h.mono ?_
      simp only [demand, hd, Due.nodes]
      omega
    · rintro _ rfl
      refine ⟨rfl, ?_, rfl⟩
      simp only [demand, hd, Due.nodes, NodePool.count_grown]
  · next span hd =>
    refine ((yields_reserve s.pool _ _).mono (fun _ h => h) ?_).bind fun _ _ => ?_
    · intro _ h
      refine h.mono ?_
      have hle := reserved_le_pending s.stack
      simp only [demand]
      omega
    · refine ⟨rfl, ?_, rfl⟩
      simp only [demand, hd, Due.nodes]

/-- One token further, with the same pool, at most two nodes more are asked for. -/
def Advances (s s' : ParserState) : Prop :=
  s'.pool.capacity = s.pool.capacity ∧ s'.demand ≤ s.demand + 2

/-- Either the pool was too small for what was asked for, or the token is to blame. -/
def Justified (s : ParserState) (t : Token) (e : MathError) : Prop :=
  TooSmall s.pool s.demand e ∨ ¬e.IsNodeLimit ∧ e.stage = .parsing ∧ e.span = some t.span

theorem justified_of_token {cause : Cause} (hs : cause.stage = .parsing)
    (hk : cause.kind ≠ some .nodeLimitExceeded) : Justified s t (.of cause (some t.span)) :=
  .inr ⟨fun h => hk h.2, hs, rfl⟩

theorem Justified.not_isNodeLimit {err : MathError} (h : Justified s t err)
    (hroom : (s.demand : Int) ≤ s.pool.capacity) : ¬err.IsNodeLimit := by
  rcases h with ⟨-, hlt⟩ | ⟨hlimit, -⟩
  · omega
  · exact hlimit

theorem advances_completed {tree : Expr} (hd : s.due = .nothing)
    (hp : pending stack ≤ pending s.stack + 1) : Advances s (s.completed stack tree) := by
  refine ⟨rfl, ?_⟩
  simp only [demand, completed, hd, Due.nodes]
  omega

theorem advances_opening {span : Span} : Advances s (s.opening frame span) := by
  refine ⟨rfl, ?_⟩
  have hle : frame.nodes ≤ 2 := by cases frame <;> simp [Frame.nodes]
  simp only [demand, opening, pending_cons, Due.nodes]
  omega

theorem yields_readOperand (hd : s.due = .nothing) :
    Yields (Advances s) (Justified s t) (s.readOperand t) := by
  unfold readOperand
  split
  · exact advances_completed hd (Nat.le_succ _)
  · exact advances_completed hd (Nat.le_succ _)
  · exact advances_completed hd (Nat.le_succ _)
  · exact ⟨rfl, Nat.le_add_right _ _⟩
  · exact advances_opening
  · exact advances_opening
  · exact justified_of_token rfl (by simp [Cause.kind])

theorem yields_readArguments {f : FunctionKind} {name : Token} :
    Yields (Advances s) (Justified s t) (s.readArguments f name t) := by
  unfold readArguments
  split
  · exact advances_opening
  · exact justified_of_token rfl (by simp [Cause.kind])

theorem yields_unwind_settled (hs : 1 ≤ strength) (hd : s.due = .nothing) :
    Yields (fun r => r.2.2.capacity = s.pool.capacity ∧ r.2.2.count + pending r.1 = s.demand)
      (Justified s t) (unwind strength s.stack e s.pool) := by
  have hdemand : s.demand = s.pool.count + pending s.stack := by
    simp only [demand, hd, Due.nodes, Nat.add_zero]
  refine (yields_unwind hs).mono ?_ ?_
  · rintro r ⟨hcap, hcount⟩
    exact ⟨hcap, hcount.trans hdemand.symm⟩
  · intro _ h
    exact .inl (hdemand ▸ h)

theorem yields_readInfix {tree : Expr} {opened : Expr → Frame} (hs : 1 ≤ strength)
    (hd : s.due = .nothing) (ho : ∀ left, (opened left).nodes = 1) :
    Yields (Advances s) (Justified s t) (s.readInfix tree strength opened) := by
  refine (yields_unwind_settled hs hd).bind ?_
  rintro ⟨stack', left, pool'⟩ ⟨hcap, hcount⟩
  refine ⟨hcap, ?_⟩
  simp only [demand, hd, Due.nodes, pending_cons, ho] at hcount ⊢
  omega

theorem yields_readClosing {tree : Expr} (hd : s.due = .nothing) :
    Yields (Advances s) (Justified s t) (s.readClosing tree t) := by
  refine (yields_unwind_settled (Nat.le_refl 1) hd).bind ?_
  rintro ⟨stack', inner, pool'⟩ ⟨hcap, hcount⟩
  have closed {rest : List Frame} {tree : Expr} (hp : pending stack' = 1 + pending rest) :
      Advances s (completed { s with pool := pool' } rest tree) := by
    refine ⟨hcap, ?_⟩
    simp only [demand, completed, Due.nodes, hd] at hcount ⊢
    omega
  dsimp only
  split
  · split
    · exact closed (pending_cons _ _)
    · exact justified_of_token rfl (by simp [Cause.kind])
  · split
    · exact closed (pending_cons _ _)
    · exact justified_of_token rfl (by simp [Cause.kind])
  · exact justified_of_token rfl (by simp [Cause.kind])

theorem yields_readOperator {tree : Expr} (hd : s.due = .nothing) :
    Yields (Advances s) (Justified s t) (s.readOperator tree t) := by
  unfold readOperator
  split
  · exact advances_completed hd (Nat.le_succ _)
  · exact advances_opening
  · exact yields_readInfix (by decide) hd fun _ => rfl
  · exact yields_readInfix (by decide) hd fun _ => rfl
  · exact yields_readInfix (by decide) hd fun _ => rfl
  · exact yields_readInfix (by decide) hd fun _ => rfl
  · exact yields_readClosing hd

/-- A state asks for as much after its check as before, so what holds of the one holds of the
other. -/
theorem Yields.of_settled {α : Type} {Q : ParserState → α → Prop}
    {f : ParserState → Except MathError α}
    (hQ : ∀ s' a, s'.pool.capacity = s.pool.capacity → s'.demand = s.demand → Q s' a → Q s a)
    (hf : ∀ s', s'.due = .nothing → Yields (Q s') (Justified s' t) (f s')) :
    Yields (Q s) (Justified s t) (s.settle >>= f) := by
  refine ((yields_settle s).mono (fun _ h => h) fun _ h => .inl h).bind ?_
  rintro s' ⟨hcap, hdemand, hd⟩
  refine (hf s' hd).mono (fun a ha => hQ s' a hcap hdemand ha) fun e he => ?_
  rwa [Justified, TooSmall, hcap, hdemand] at he

/-- Every step reads a token for at most two nodes, or fails for lack of nodes, or finds that the
token is wrong. -/
theorem yields_step (s : ParserState) (t : Token) :
    Yields (Advances s) (Justified s t) (s.step t) := by
  refine Yields.of_settled (fun s' a hcap hdemand ha => ?_) fun s' hd => ?_
  · rwa [Advances, hcap, hdemand] at ha
  · split
    · exact yields_readOperand hd
    · exact yields_readArguments
    · exact yields_readOperator hd

theorem yields_conclude (s : ParserState) (t : Token) :
    Yields (fun _ => True) (Justified s t) (s.conclude t) := by
  refine Yields.of_settled (Q := fun _ _ => True) (fun _ _ _ _ _ => trivial) fun s' hd => ?_
  split
  · exact justified_of_token rfl (by simp [Cause.kind])
  · exact justified_of_token rfl (by simp [Cause.kind])
  · refine (yields_unwind_settled (Nat.le_refl 1) hd).bind fun r _ => ?_
    dsimp only
    split
    · exact justified_of_token rfl (by simp [Cause.kind])
    · exact justified_of_token rfl (by simp [Cause.kind])
    · trivial

/-- With two nodes for each token besides those asked for already, the pool never fills. -/
theorem not_isNodeLimit_of_run {ending : Except MathError Token} {us : List Token} {e : MathError}
    (hroom : (s.demand + 2 * us.length : Nat) ≤ s.pool.capacity)
    (hending : ∀ e, ending = .error e → ¬e.IsNodeLimit) (h : s.run ending us = .error e) :
    ¬e.IsNodeLimit := by
  induction us generalizing s with
  | nil =>
    cases ending with
    | ok fin => exact ((yields_conclude s fin).of_error h).not_isNodeLimit (by omega)
    | error e' =>
      cases h
      exact hending e rfl
  | cons t us ih =>
    simp only [run, bind, Except.bind] at h
    split at h
    · next e' he =>
      cases h
      exact ((yields_step s t).of_error he).not_isNodeLimit (by omega)
    · next s' hs =>
      obtain ⟨hcap, hdemand⟩ := (yields_step s t).of_ok hs
      refine ih ?_ h
      rw [List.length_cons] at hroom
      omega

end ParserState

end Calculator
