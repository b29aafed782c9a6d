import Calculator.Proofs.Grammar.Parsing
import Mathlib.Algebra.Ring.Nat

/-!
# What a parse takes from the pool

The nodes taken so far are those of the trees on the stack and of the operand behind it. So a parse
takes exactly the nodes of its tree, and never more than the pool holds.
-/

namespace Calculator

/-- The nodes of the complete operands that an open construct holds. -/
def Frame.built : Frame → Nat
  | .sum _ left | .product _ left | .power left => left.size
  | .negation _ | .group _ | .call .. => 0

def Phase.built : Phase → Nat
  | .operator tree => tree.size
  | .operand | .arguments .. => 0

/-- The nodes that are complete but not yet taken. -/
def Due.nodes : Due → Nat
  | .node _ => 1
  | .nothing | .room _ => 0

namespace ParserState

def built (stack : List Frame) : Nat := (stack.map Frame.built).sum

/-- A pool that started with room for `capacity` nodes has given out `n`. -/
def Taken (pool : NodePool) (capacity : Int) (n : Nat) : Prop :=
  pool.capacity = capacity ∧ pool.count = n ∧ (n = 0 ∨ (n : Int) ≤ capacity)

variable {capacity : Int} {strength : Nat} {frame : Frame} {stack stack' : List Frame}
  {e e' : Expr} {pool pool' : NodePool} {s s' : ParserState} {t : Token} {n : Nat}

theorem Taken.grown {m : Nat} (h : Taken pool capacity n)
    (hroom : (pool.count : Int) + m ≤ pool.capacity) : Taken (pool.grown m) capacity (n + m) := by
  obtain ⟨hcap, hcount, -⟩ := h
  refine ⟨hcap, by rw [NodePool.count_grown, hcount], .inr ?_⟩
  rw [← hcap, ← hcount]
  simpa using hroom

theorem taken_build (h : Taken pool capacity (n + frame.built + e.size))
    (hs : 1 ≤ frame.strength) (hb : build pool e frame = .ok (e', pool')) :
    Taken pool' capacity (n + e'.size) := by
  cases frame with
  | sum op left =>
    obtain ⟨rfl, rfl, hroom⟩ := joined_of_build hb
    simpa [Frame.built, Expr.joined, Expr.size, Nat.add_assoc] using
      h.grown (m := 1) (by omega)
  | product op left =>
    obtain ⟨rfl, rfl, hroom⟩ := joined_of_build hb
    simpa [Frame.built, Expr.joined, Expr.size, Nat.add_assoc] using
      h.grown (m := 1) (by omega)
  | power left =>
    obtain ⟨rfl, rfl, hroom⟩ := joined_of_build hb
    simpa [Frame.built, Expr.joined, Expr.size, Nat.add_assoc] using
      h.grown (m := 1) (by omega)
  | negation minus =>
    obtain ⟨rfl, rfl, hroom⟩ := negation_of_build hb
    have hg := h.grown (m := 2) (by omega)
    simp only [Frame.built, Expr.negation, Expr.size] at hg ⊢
    exact (show n + (1 + e.size + 1) = n + 0 + e.size + 2 by omega) ▸ hg
  | group | call => simp [Frame.strength] at hs

theorem taken_unwind (hs : 1 ≤ strength) (h : Taken pool capacity (built stack + e.size))
    (hu : unwind strength stack e pool = .ok (stack', e', pool')) :
    Taken pool' capacity (built stack' + e'.size) := by
  induction stack generalizing e pool with
  | nil =>
    simp only [unwind, Except.ok.injEq, Prod.mk.injEq] at hu
    obtain ⟨rfl, rfl, rfl⟩ := hu
    exact h
  | cons frame stack ih =>
    obtain ⟨-, hr⟩ | ⟨hle, tree, pool₁, hb, hrest⟩ := unwind_cons_eq_ok hu
    · simp only [Prod.mk.injEq] at hr
      obtain ⟨rfl, rfl, rfl⟩ := hr
      exact h
    · refine ih (taken_build ?_ (by omega) hb) hrest
      simpa [built, Nat.add_comm, Nat.add_left_comm] using h

/-- The nodes taken and those due are the nodes of all complete operands. -/
def Accounted (s : ParserState) (capacity : Int) : Prop :=
  ∃ n, Taken s.pool capacity n ∧ n + s.due.nodes = built s.stack + s.phase.built

theorem accounted_settle (h : Accounted s capacity) (hs : s.settle = .ok s') :
    Taken s'.pool capacity (built s'.stack + s'.phase.built) ∧ s'.due = .nothing := by
  obtain ⟨n, htaken, heq⟩ := h
  unfold settle at hs
  split at hs
  · next hd =>
    cases hs
    rw [hd] at heq
    exact ⟨heq ▸ htaken, hd⟩
  · next span hd =>
    simp only [bind, Except.bind] at hs
    split at hs
    · cases hs
    · rename_i taken htake
      cases hs
      obtain ⟨hlt, rfl⟩ := NodePool.take_eq_ok_iff.1 htake
      rw [hd] at heq
      exact ⟨heq ▸ htaken.grown (by omega), rfl⟩
  · next span hd =>
    simp only [bind, Except.bind] at hs
    split at hs
    · cases hs
    · cases hs
      rw [hd] at heq
      exact ⟨heq ▸ htaken, rfl⟩

theorem accounted_readInfix {tree : Expr} {opened : Expr → Frame} (hs : 1 ≤ strength)
    (hf : ∀ left, (opened left).built = left.size) (hdue : s.due = .nothing)
    (h : Taken s.pool capacity (built s.stack + tree.size))
    (ht : s.readInfix tree strength opened = .ok s') : Accounted s' capacity := by
  simp only [readInfix, bind, Except.bind] at ht
  split at ht
  · cases ht
  · rename_i r hr
    obtain ⟨stack₁, left, pool₁⟩ := r
    cases ht
    refine ⟨_, taken_unwind hs h hr, ?_⟩
    simp only [hdue, Due.nodes, Phase.built, built, List.map_cons, List.sum_cons, hf]
    omega

theorem accounted_readClosing {tree : Expr}
    (h : Taken s.pool capacity (built s.stack + tree.size))
    (ht : s.readClosing tree t = .ok s') : Accounted s' capacity := by
  simp only [readClosing, bind, Except.bind] at ht
  split at ht
  · cases ht
  · rename_i r hr
    obtain ⟨stack₁, inner, pool₁⟩ := r
    have htaken := taken_unwind (Nat.le_refl 1) h hr
    split at ht
    · next opening rest hstack =>
      simp only at hstack
      split at ht
      · cases ht
        refine ⟨_, htaken, ?_⟩
        simp [completed, hstack, built, Frame.built, Phase.built, Due.nodes, Expr.size]
        omega
      · cases ht
    · next f name opening rest hstack =>
      simp only at hstack
      split at ht
      · cases ht
        refine ⟨_, htaken, ?_⟩
        simp [completed, hstack, built, Frame.built, Phase.built, Due.nodes, Expr.size]
        omega
      · cases ht
    · cases ht

theorem accounted_readOperator {tree : Expr} (hdue : s.due = .nothing)
    (h : Taken s.pool capacity (built s.stack + tree.size))
    (ht : s.readOperator tree t = .ok s') : Accounted s' capacity := by
  unfold readOperator at ht
  split at ht
  · cases ht
    exact ⟨_, h, by simp [completed, Due.nodes, Phase.built, Expr.size]; omega⟩
  · cases ht
    refine ⟨_, h, ?_⟩
    simp [opening, Due.nodes, Phase.built, built, Frame.built]
    omega
  · exact accounted_readInfix (by decide) (fun _ => rfl) hdue h ht
  · exact accounted_readInfix (by decide) (fun _ => rfl) hdue h ht
  · exact accounted_readInfix (by decide) (fun _ => rfl) hdue h ht
  · exact accounted_readInfix (by decide) (fun _ => rfl) hdue h ht
  · exact accounted_readClosing h ht

theorem accounted_readOperand (hdue : s.due = .nothing)
    (h : Taken s.pool capacity (built s.stack)) (ht : s.readOperand t = .ok s') :
    Accounted s' capacity := by
  unfold readOperand at ht
  split at ht
  · cases ht
    exact ⟨_, h, rfl⟩
  · cases ht
    exact ⟨_, h, rfl⟩
  · cases ht
    exact ⟨_, h, rfl⟩
  · cases ht
    exact ⟨_, h, by simp [hdue, Due.nodes, Phase.built]⟩
  · cases ht
    exact ⟨_, h, by simp [opening, Due.nodes, Phase.built, built, Frame.built]⟩
  · cases ht
    exact ⟨_, h, by simp [opening, Due.nodes, Phase.built, built, Frame.built]⟩
  · cases ht

theorem accounted_step (h : Accounted s capacity) (ht : s.step t = .ok s') :
    Accounted s' capacity := by
  simp only [step, bind, Except.bind] at ht
  split at ht
  · cases ht
  · rename_i settled hset
    obtain ⟨htaken, hdue⟩ := accounted_settle h hset
    split at ht
    · next hp => exact accounted_readOperand hdue (by simpa [hp, Phase.built] using htaken) ht
    · next f name hp =>
      unfold readArguments at ht
      split at ht
      · cases ht
        exact ⟨_, htaken, by simp [hp, opening, Due.nodes, Phase.built, built, Frame.built]⟩
      · cases ht
    · next tree hp => exact accounted_readOperator hdue (by simpa [hp, Phase.built] using htaken) ht

theorem accounted_run {ending : Except MathError Token} {us : List Token} {p : Parsed}
    (h : Accounted s capacity) (hr : s.run ending us = .ok p) :
    p.count = p.tree.size ∧ (p.tree.size : Int) ≤ capacity := by
  induction us generalizing s with
  | nil =>
    simp only [run, bind, Except.bind] at hr
    split at hr
    · cases hr
    · rename_i fin
      simp only [conclude, bind, Except.bind] at hr
      split at hr
      · cases hr
      · rename_i settled hset
        obtain ⟨htaken, -⟩ := accounted_settle h hset
        split at hr
        · cases hr
        · cases hr
        · next tree hp =>
          split at hr
          · cases hr
          · rename_i r hu
            obtain ⟨stack', operand, pool'⟩ := r
            rw [hp, Phase.built] at htaken
            obtain ⟨-, hcount, hle⟩ := taken_unwind (Nat.le_refl 1) htaken hu
            have hpos := operand.size_pos
            split at hr
            · cases hr
            · cases hr
            · next hgroup hcall =>
              cases hr
              obtain rfl | ⟨opening, rest, rfl⟩ | ⟨f, name, opening, rest, rfl⟩ :=
                eq_nil_or_bracket (heldBelow_of_unwind hu)
              · simp only [built, List.map_nil, List.sum_nil, Nat.zero_add] at hcount hle
                refine ⟨hcount, hle.resolve_left ?_⟩
                omega
              · exact absurd rfl (hgroup _ _)
              · exact absurd rfl (hcall _ _ _ _)
  | cons t us ih =>
    simp only [run, bind, Except.bind] at hr
    split at hr
    · cases hr
    · rename_i s' hs
      exact ih (accounted_step h hs) hr

end ParserState

/-- A parse takes the nodes of its tree and no others, and the pool holds them. -/
theorem size_of_parse {text : String} {capacity : Int} {p : Parsed}
    (h : parse text capacity = .ok p) :
    p.count = p.tree.size ∧ (p.tree.size : Int) ≤ capacity := by
  have hstart : (ParserState.initial capacity).Accounted capacity := ⟨0, ⟨rfl, rfl, .inl rfl⟩, rfl⟩
  exact ParserState.accounted_run hstart h

end Calculator
