import Calculator.Expr.Parser
import Calculator.Proofs.Grammar

/-!
# The stack of open constructs

What the operations of the parser do when the pool has room, and what they have done when they
succeed. The pool after `n` more nodes is `pool.grown n`, so that every operation is an equation
between pools.
-/

namespace Calculator

namespace NodePool

def grown (p : NodePool) (n : Nat) : NodePool := { p with count := p.count + n }

@[simp] theorem count_grown (p : NodePool) (n : Nat) : (p.grown n).count = p.count + n := rfl

@[simp] theorem capacity_grown (p : NodePool) (n : Nat) : (p.grown n).capacity = p.capacity := rfl

@[simp] theorem grown_grown (p : NodePool) (m n : Nat) :
    (p.grown m).grown n = p.grown (m + n) := by
  simp only [grown, Nat.add_assoc]

theorem take_eq_ok_iff {p q : NodePool} {span : Option Span} :
    p.take span = .ok q ↔ (p.count : Int) < p.capacity ∧ q = p.grown 1 := by
  unfold take
  split <;> simp [grown, eq_comm] <;> omega

theorem take_of_lt {p : NodePool} {span : Option Span} (h : (p.count : Int) < p.capacity) :
    p.take span = .ok (p.grown 1) := take_eq_ok_iff.2 ⟨h, rfl⟩

theorem reserve_of_le {p : NodePool} {n : Nat} {span : Option Span}
    (h : (p.count : Int) + n ≤ p.capacity) : p.reserve n span = .ok () := by
  unfold reserve
  exact if_neg (by omega)

end NodePool

/-- The construct on top of the stack, if there is one, holds its operand less tightly than
`strength`. -/
def HeldBelow (strength : Nat) (stack : List Frame) : Prop :=
  ∀ frame ∈ stack.head?, frame.strength < strength

theorem heldBelow_nil (strength : Nat) : HeldBelow strength [] := by simp [HeldBelow]

theorem heldBelow_cons {strength : Nat} {frame : Frame} {stack : List Frame} :
    HeldBelow strength (frame :: stack) ↔ frame.strength < strength := by
  simp [HeldBelow]

theorem Frame.strength_le (frame : Frame) : frame.strength ≤ 3 := by
  cases frame <;> simp [strength]

theorem heldBelow_of_lt {strength : Nat} (h : 3 < strength) (stack : List Frame) :
    HeldBelow strength stack :=
  fun frame _ => Nat.lt_of_le_of_lt frame.strength_le h

theorem eq_nil_or_bracket {stack : List Frame} (h : HeldBelow 1 stack) :
    stack = [] ∨ (∃ opening rest, stack = .group opening :: rest) ∨
      ∃ f name opening rest, stack = .call f name opening :: rest := by
  cases stack with
  | nil => exact .inl rfl
  | cons frame stack =>
    have hlow := heldBelow_cons.1 h
    cases frame with
    | group opening => exact .inr (.inl ⟨opening, stack, rfl⟩)
    | call f name opening => exact .inr (.inr ⟨f, name, opening, stack, rfl⟩)
    | sum | product | negation | power => simp [Frame.strength] at hlow

namespace ParserState

variable {strength : Nat} {frame : Frame} {stack : List Frame} {e e' : Expr} {pool pool' : NodePool}

theorem build_joined {op : Operator} {left : Expr} (h : (pool.count : Int) < pool.capacity) :
    build.binary pool e op left = .ok (.joined op left e, pool.grown 1) := by
  simp only [build.binary, NodePool.take_of_lt h]
  rfl

theorem build_negation {minus : Token} (h : (pool.count : Int) + 2 ≤ pool.capacity) :
    build pool e (.negation minus) = .ok (.negation e (some minus.span), pool.grown 2) := by
  have first : (pool.count : Int) < pool.capacity := by omega
  have second : ((pool.grown 1).count : Int) < (pool.grown 1).capacity := by
    simp only [NodePool.count_grown, NodePool.capacity_grown]
    omega
  simp only [build, NodePool.take_of_lt first]
  change (do return (_, ← (pool.grown 1).take _)) = _
  rw [NodePool.take_of_lt second]
  rfl

theorem unwind_of_heldBelow (h : HeldBelow strength stack) :
    unwind strength stack e pool = .ok (stack, e, pool) := by
  cases stack with
  | nil => rfl
  | cons frame stack =>
    have hs := heldBelow_cons.1 h
    rw [unwind, if_neg (by omega)]

theorem unwind_cons (hs : strength ≤ frame.strength) (hb : build pool e frame = .ok (e', pool')) :
    unwind strength (frame :: stack) e pool = unwind strength stack e' pool' := by
  rw [unwind, if_pos hs, hb]
  rfl

theorem joined_of_build {op : Operator} {left : Expr}
    (h : build.binary pool e op left = .ok (e', pool')) :
    e' = .joined op left e ∧ pool' = pool.grown 1 ∧ (pool.count : Int) < pool.capacity := by
  simp only [build.binary, bind, Except.bind] at h
  split at h
  · cases h
  · rename_i p hp
    obtain ⟨hlt, rfl⟩ := NodePool.take_eq_ok_iff.1 hp
    simp only [pure, Except.pure, Except.ok.injEq, Prod.mk.injEq] at h
    exact ⟨h.1.symm, h.2.symm, hlt⟩

theorem negation_of_build {minus : Token}
    (h : build pool e (.negation minus) = .ok (e', pool')) :
    e' = .negation e (some minus.span) ∧ pool' = pool.grown 2 ∧
      (pool.count : Int) + 1 < pool.capacity := by
  simp only [build, bind, Except.bind] at h
  split at h
  · cases h
  · rename_i p hp
    obtain ⟨-, rfl⟩ := NodePool.take_eq_ok_iff.1 hp
    split at h
    · cases h
    · rename_i q hq
      obtain ⟨hlt, rfl⟩ := NodePool.take_eq_ok_iff.1 hq
      simp only [pure, Except.pure, Except.ok.injEq, Prod.mk.injEq] at h
      exact ⟨h.1.symm, by rw [← h.2, NodePool.grown_grown], by simpa using hlt⟩

/-- Closing constructs either leaves the top of the stack alone or builds its node first. -/
theorem unwind_cons_eq_ok {r : List Frame × Expr × NodePool}
    (h : unwind strength (frame :: stack) e pool = .ok r) :
    (frame.strength < strength ∧ r = (frame :: stack, e, pool)) ∨
    (strength ≤ frame.strength ∧ ∃ e' pool', build pool e frame = .ok (e', pool') ∧
      unwind strength stack e' pool' = .ok r) := by
  rw [unwind] at h
  split at h
  · next hs =>
    cases hb : build pool e frame with
    | error err =>
      rw [hb] at h
      cases h
    | ok built =>
      rw [hb] at h
      exact .inr ⟨hs, built.1, built.2, rfl, h⟩
  · next hs =>
    simp only [Except.ok.injEq] at h
    exact .inl ⟨by omega, h.symm⟩

theorem heldBelow_of_unwind {r : List Frame × Expr × NodePool}
    (h : unwind strength stack e pool = .ok r) : HeldBelow strength r.1 := by
  induction stack generalizing e pool with
  | nil =>
    simp only [unwind, Except.ok.injEq] at h
    exact h ▸ heldBelow_nil strength
  | cons frame stack ih =>
    obtain ⟨hlt, rfl⟩ | ⟨-, e', pool', -, hrest⟩ := unwind_cons_eq_ok h
    · exact heldBelow_cons.2 hlt
    · exact ih hrest

end ParserState

end Calculator
