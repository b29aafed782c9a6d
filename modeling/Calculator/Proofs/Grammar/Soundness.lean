import Calculator.Proofs.Grammar.Stack

/-!
# What is read is a phrase

The stack of open constructs remembers the tokens read so far: `Held stack ts` says that `ts` are
the phrases and signs that the constructs on `stack` stand for. Every operation of the parser keeps
the tokens read as `ts ++ us`, with `ts` held by the stack and `us` a phrase of the operand behind
it.
-/

namespace Calculator

/-- The tokens that the open constructs of a stack stand for, the bottom of the stack first. -/
inductive Held : List Frame → List Token → Prop where
  | nil : Held [] []
  | sum {op : Operator} {sign : Token} {left : Expr} {ts us : List Token} {stack : List Frame}
    (h : Held stack ts) (hbelow : HeldBelow 1 stack) (hl : Derives .expression us left)
    (hs : sign.kind.additive? = some op) : Held (.sum op left :: stack) (ts ++ us ++ [sign])
  | product {op : Operator} {sign : Token} {left : Expr} {ts us : List Token}
    {stack : List Frame} (h : Held stack ts) (hbelow : HeldBelow 2 stack)
    (hl : Derives .term us left) (hs : sign.kind.multiplicative? = some op) :
    Held (.product op left :: stack) (ts ++ us ++ [sign])
  | power {caret : Token} {base : Expr} {ts us : List Token} {stack : List Frame}
    (h : Held stack ts) (hl : Derives .suffixed us base) (hc : caret.kind = .caret) :
    Held (.power base :: stack) (ts ++ us ++ [caret])
  | negation {minus : Token} {ts : List Token} {stack : List Frame} (h : Held stack ts)
    (hm : minus.kind = .minus) : Held (.negation minus :: stack) (ts ++ [minus])
  | group {opening : Token} {ts : List Token} {stack : List Frame} (h : Held stack ts)
    (ho : opening.kind = .leftParen) : Held (.group opening :: stack) (ts ++ [opening])
  | call {f : FunctionKind} {name opening : Token} {ts : List Token} {stack : List Frame}
    (h : Held stack ts) (hn : name.kind = .function f) (ho : opening.kind = .leftParen) :
    Held (.call f name opening :: stack) (ts ++ [name, opening])

namespace ParserState

variable {strength : Nat} {frame : Frame} {stack stack' : List Frame} {e e' : Expr}
  {pool pool' : NodePool} {ts us : List Token} {c : Category}

/-- A construct that ends with its operand turns the operand into a phrase of its own strength. -/
theorem derives_of_build (hh : Held (frame :: stack) ts) (hd : Derives c us e)
    (hbelow : c.strength ≤ 2 → HeldBelow c.strength (frame :: stack))
    (hs : 1 ≤ frame.strength) (hb : build pool e frame = .ok (e', pool')) :
    ∃ c' ts' us', Held stack ts' ∧ Derives c' us' e' ∧ c'.strength = frame.strength ∧
      (c'.strength ≤ 2 → HeldBelow c'.strength stack) ∧ ts ++ us = ts' ++ us' := by
  cases hh with
  | @sum op sign left ts vs _ h below hl hsign =>
    have hterm : Derives .term us e := by
      refine hd.toTerm (Nat.not_lt.1 fun hlt => ?_)
      have hlow := heldBelow_cons.1 (hbelow (by omega))
      simp only [Frame.strength] at hlow
      omega
    obtain ⟨rfl, -⟩ := joined_of_build hb
    exact ⟨.expression, ts, vs ++ sign :: us, h, .sum hl hsign hterm, rfl, fun _ => below,
      by simp⟩
  | @product op sign left ts vs _ h below hl hsign =>
    have hfactor : Derives .factor us e := by
      refine hd.toFactor (Nat.not_lt.1 fun hlt => ?_)
      have hlow := heldBelow_cons.1 (hbelow (by omega))
      simp only [Frame.strength] at hlow
      omega
    obtain ⟨rfl, -⟩ := joined_of_build hb
    exact ⟨.term, ts, vs ++ sign :: us, h, .product hl hsign hfactor, rfl, fun _ => below,
      by simp⟩
  | @power caret base ts vs _ h hl hcaret =>
    have hfactor : Derives .factor us e := by
      refine hd.toFactor (Nat.not_lt.1 fun hlt => ?_)
      have hlow := heldBelow_cons.1 (hbelow (by omega))
      simp only [Frame.strength] at hlow
      omega
    obtain ⟨rfl, -⟩ := joined_of_build hb
    exact ⟨.factor, ts, vs ++ caret :: us, h, .power hl hcaret hfactor, rfl,
      fun hle => absurd hle (by decide), by simp⟩
  | @negation minus ts _ h hm =>
    have hfactor : Derives .factor us e := by
      refine hd.toFactor (Nat.not_lt.1 fun hlt => ?_)
      have hlow := heldBelow_cons.1 (hbelow (by omega))
      simp only [Frame.strength] at hlow
      omega
    obtain ⟨rfl, -⟩ := negation_of_build hb
    exact ⟨.factor, ts, minus :: us, h, .negation hm hfactor, rfl,
      fun hle => absurd hle (by decide), by simp⟩
  | group | call => simp [Frame.strength] at hs

/-- Closing constructs keeps the tokens and makes the operand a phrase that holds at least as
tightly. -/
theorem derives_of_unwind (hs : 1 ≤ strength) (hh : Held stack ts) (hd : Derives c us e)
    (hbelow : c.strength ≤ 2 → HeldBelow c.strength stack) (hc : strength ≤ c.strength)
    (hu : unwind strength stack e pool = .ok (stack', e', pool')) :
    ∃ c' ts' us', Held stack' ts' ∧ Derives c' us' e' ∧ strength ≤ c'.strength ∧
      ts ++ us = ts' ++ us' := by
  induction stack generalizing c ts us e pool with
  | nil =>
    simp only [unwind, Except.ok.injEq, Prod.mk.injEq] at hu
    obtain ⟨rfl, rfl, -⟩ := hu
    exact ⟨c, ts, us, hh, hd, hc, rfl⟩
  | cons frame stack ih =>
    obtain ⟨-, hr⟩ | ⟨hle, built, pool₁, hb, hrest⟩ := unwind_cons_eq_ok hu
    · simp only [Prod.mk.injEq] at hr
      obtain ⟨rfl, rfl, -⟩ := hr
      exact ⟨c, ts, us, hh, hd, hc, rfl⟩
    · obtain ⟨c₁, ts₁, us₁, hh₁, hd₁, hs₁, hbelow₁, heq₁⟩ :=
        derives_of_build hh hd hbelow (by omega) hb
      obtain ⟨c₂, ts₂, us₂, hh₂, hd₂, hs₂, heq₂⟩ := ih hh₁ hd₁ hbelow₁ (by omega) hrest
      exact ⟨c₂, ts₂, us₂, hh₂, hd₂, hs₂, heq₁.trans heq₂⟩

/-- The state stands behind the tokens `ts`: the stack holds them, up to a phrase or a function name
that has just been read. -/
def Follows (s : ParserState) (ts : List Token) : Prop :=
  match s.phase with
  | .operand => Held s.stack ts
  | .arguments f name => ∃ us, ts = us ++ [name] ∧ name.kind = .function f ∧ Held s.stack us
  | .operator tree => ∃ us vs, ts = us ++ vs ∧ Held s.stack us ∧ Derives .suffixed vs tree

variable {s s' : ParserState} {t : Token}

theorem follows_settle (h : Follows s ts) (hs : s.settle = .ok s') : Follows s' ts := by
  unfold settle at hs
  split at hs
  · cases hs
    exact h
  · simp only [bind, Except.bind] at hs
    split at hs
    · cases hs
    · cases hs
      exact h
  · simp only [bind, Except.bind] at hs
    split at hs
    · cases hs
    · cases hs
      exact h

theorem follows_readOperand (h : Held s.stack ts) (ht : s.readOperand t = .ok s') :
    Follows s' (ts ++ [t]) := by
  unfold readOperand at ht
  split at ht
  · next hk =>
    cases ht
    exact ⟨ts, [t], rfl, h, .primary (.number hk)⟩
  · next hk =>
    cases ht
    exact ⟨ts, [t], rfl, h, .primary (.named (.inl hk))⟩
  · next hk =>
    cases ht
    exact ⟨ts, [t], rfl, h, .primary (.named (.inr hk))⟩
  · next f hk =>
    cases ht
    exact ⟨ts, rfl, hk, h⟩
  · next hk =>
    cases ht
    exact .group h hk
  · next hk =>
    cases ht
    exact .negation h hk
  · cases ht

theorem follows_readArguments {f : FunctionKind} {name : Token} (h : Held s.stack ts)
    (hn : name.kind = .function f) (ht : s.readArguments f name t = .ok s') :
    Follows s' (ts ++ [name] ++ [t]) := by
  unfold readArguments at ht
  split at ht
  · next hk =>
    cases ht
    rw [List.append_assoc]
    exact .call h hn hk
  · cases ht

theorem follows_readInfix {tree : Expr} {opened : Expr → Frame} (hs : 1 ≤ strength)
    (hs4 : strength ≤ 4) (h : Held s.stack ts) (hd : Derives .suffixed us tree)
    (hopen : ∀ {c' : Category} {ts' us' : List Token} {stack' : List Frame} {left : Expr},
      Held stack' ts' → HeldBelow strength stack' → strength ≤ c'.strength →
      Derives c' us' left → Held (opened left :: stack') (ts' ++ us' ++ [t]))
    (ht : s.readInfix tree strength opened = .ok s') : Follows s' (ts ++ us ++ [t]) := by
  simp only [readInfix, bind, Except.bind] at ht
  split at ht
  · cases ht
  · rename_i r hr
    obtain ⟨c', ts', us', hh', hd', hc', heq⟩ :=
      derives_of_unwind hs h hd (fun hle => absurd hle (by decide)) hs4 hr
    cases ht
    rw [heq]
    exact hopen hh' (heldBelow_of_unwind hr) hc' hd'

theorem follows_readClosing {tree : Expr} (h : Held s.stack ts) (hd : Derives .suffixed us tree)
    (ht : s.readClosing tree t = .ok s') : Follows s' (ts ++ us ++ [t]) := by
  simp only [readClosing, bind, Except.bind] at ht
  split at ht
  · cases ht
  · rename_i r hr
    obtain ⟨c', ts', us', hh', hd', -, heq⟩ :=
      derives_of_unwind (Nat.le_refl 1) h hd (fun hle => absurd hle (by decide)) (by decide) hr
    rw [heq]
    split at ht
    · next opening rest hstack =>
      split at ht
      · next hk =>
        cases ht
        rw [hstack] at hh'
        cases hh' with
        | group hheld ho =>
          exact ⟨_, _, by simp, hheld, .primary (.group ho hd'.toExpression hk)⟩
      · cases ht
    · next f name opening rest hstack =>
      split at ht
      · next hk =>
        cases ht
        rw [hstack] at hh'
        cases hh' with
        | call hheld hn ho =>
          exact ⟨_, _, by simp, hheld, .primary (.call hn ho hd'.toExpression hk)⟩
      · cases ht
    · cases ht

theorem follows_readOperator {tree : Expr} (h : Held s.stack ts) (hd : Derives .suffixed us tree)
    (ht : s.readOperator tree t = .ok s') : Follows s' (ts ++ us ++ [t]) := by
  have product {op : Operator} (hk : t.kind.multiplicative? = some op)
      (hi : s.readInfix tree 2 (.product op) = .ok s') : Follows s' (ts ++ us ++ [t]) :=
    follows_readInfix (by decide) (by decide) h hd
      (fun hh' hbelow hc hd' => .product hh' hbelow (hd'.toTerm hc) hk) hi
  have sum {op : Operator} (hk : t.kind.additive? = some op)
      (hi : s.readInfix tree 1 (.sum op) = .ok s') : Follows s' (ts ++ us ++ [t]) :=
    follows_readInfix (by decide) (by decide) h hd
      (fun hh' hbelow _ hd' => .sum hh' hbelow hd'.toExpression hk) hi
  unfold readOperator at ht
  split at ht
  · next hk =>
    cases ht
    exact ⟨ts, us ++ [t], by simp, h, .factorial hd hk⟩
  · next hk =>
    cases ht
    exact .power h hd hk
  · next hk => exact product (by rw [hk]; rfl) ht
  · next hk => exact product (by rw [hk]; rfl) ht
  · next hk => exact sum (by rw [hk]; rfl) ht
  · next hk => exact sum (by rw [hk]; rfl) ht
  · exact follows_readClosing h hd ht

/-- One token further, the state stands behind one token more. -/
theorem follows_step (h : Follows s ts) (ht : s.step t = .ok s') : Follows s' (ts ++ [t]) := by
  simp only [step, bind, Except.bind] at ht
  split at ht
  · cases ht
  · rename_i settled hset
    have hf := follows_settle h hset
    unfold Follows at hf
    split at ht
    · next hp =>
      rw [hp] at hf
      exact follows_readOperand hf ht
    · next f name hp =>
      rw [hp] at hf
      obtain ⟨us, rfl, hn, hheld⟩ := hf
      exact follows_readArguments hheld hn ht
    · next tree hp =>
      rw [hp] at hf
      obtain ⟨us, vs, rfl, hheld, hd⟩ := hf
      exact follows_readOperator hheld hd ht

theorem derives_of_conclude {p : Parsed} (h : Follows s ts) (ht : s.conclude t = .ok p) :
    Derives .expression ts p.tree := by
  simp only [conclude, bind, Except.bind] at ht
  split at ht
  · cases ht
  · rename_i settled hset
    have hf := follows_settle h hset
    unfold Follows at hf
    split at ht
    · cases ht
    · cases ht
    · next tree hp =>
      rw [hp] at hf
      obtain ⟨us, vs, rfl, hheld, hd⟩ := hf
      split at ht
      · cases ht
      · rename_i r hr
        obtain ⟨stack', operand, pool'⟩ := r
        obtain ⟨c', ts', us', hh', hd', -, heq⟩ :=
          derives_of_unwind (Nat.le_refl 1) hheld hd (fun hle => absurd hle (by decide))
            (by decide) hr
        split at ht
        · cases ht
        · cases ht
        · next hgroup hcall =>
          cases ht
          rw [heq]
          -- what is left on the stack holds nothing and is no bracket, so it is empty
          obtain rfl | ⟨opening, rest, rfl⟩ | ⟨f, name, opening, rest, rfl⟩ :=
            eq_nil_or_bracket (heldBelow_of_unwind hr)
          · cases hh'
            exact hd'.toExpression
          · exact absurd rfl (hgroup _ _)
          · exact absurd rfl (hcall _ _ _ _)

/-- What a parse returns is the tree of all tokens, and the tokens end with the text. -/
theorem derives_of_run {ending : Except MathError Token} {p : Parsed} (h : Follows s ts)
    (hr : s.run ending us = .ok p) :
    (∃ fin, ending = .ok fin) ∧ Derives .expression (ts ++ us) p.tree := by
  induction us generalizing s ts with
  | nil =>
    simp only [run, bind, Except.bind] at hr
    split at hr
    · cases hr
    · rename_i fin
      rw [List.append_nil]
      exact ⟨⟨fin, rfl⟩, derives_of_conclude h hr⟩
  | cons t us ih =>
    simp only [run, bind, Except.bind] at hr
    split at hr
    · cases hr
    · rename_i s' hs
      simpa using ih (follows_step h hs) hr

end ParserState

end Calculator
