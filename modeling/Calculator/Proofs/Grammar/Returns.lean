import Calculator.Proofs.Grammar.Moves

/-!
# Reading above the open constructs

An operand is read on top of the constructs that are open around it. These stay untouched until the
operand is complete, and it is complete when everything that was opened since has been closed. So
the stack behind a phrase, of whatever category and wherever it begins, is the stack in front of it.
-/

namespace Calculator

def Frame.ended (operand : Expr) : Frame → Expr
  | .sum op left | .product op left => .joined op left operand
  | .power base => .joined .pow base operand
  | .negation minus => .negation operand (some minus.span)
  | .group _ | .call .. => operand

theorem Frame.size_lt_ended {frame : Frame} (hs : 1 ≤ frame.strength) (e : Expr) :
    e.size < (frame.ended e).size := by
  cases frame with
  | sum | product | power =>
    simp only [ended, Expr.joined, Expr.size]
    omega
  | negation =>
    simp only [ended, Expr.negation, Expr.size]
    omega
  | group | call => simp [strength] at hs

theorem Operator.ended_frame (op : Operator) (left right : Expr) :
    (op.frame left).ended right = .joined op left right := by
  cases op <;> rfl

theorem Operator.one_le_strength (op : Operator) : 1 ≤ op.strength := by
  cases op <;> decide

theorem Category.one_le_strength (c : Category) : 1 ≤ c.strength := by
  cases c <;> decide

namespace ParserState

/-- The tree of an operand and the constructs that end with it, the innermost first. -/
def ended (inner : List Frame) (operand : Expr) : Expr := inner.foldl Frame.ended operand

/-- The constructs on top of a stack are closed one after the other. -/
inductive Closes : List Frame × Expr × NodePool → List Frame × Expr × NodePool → Prop where
  | refl (r : List Frame × Expr × NodePool) : Closes r r
  | close {frame : Frame} {stack : List Frame} {e e' : Expr} {pool pool' : NodePool}
    {r : List Frame × Expr × NodePool} (hs : 1 ≤ frame.strength)
    (hb : build pool e frame = .ok (e', pool')) (h : Closes (stack, e', pool') r) :
    Closes (frame :: stack, e, pool) r

/-- A phrase of the category can begin: an operand comes next, and nothing that is open takes it
away from the phrase. -/
def Begins (s : ParserState) (c : Category) : Prop :=
  s.phase = .operand ∧ (c.strength ≤ 2 → HeldBelow c.strength s.stack)

/-- Behind the tokens `us` the operand `e` is complete, with the constructs of `stack` open. -/
def Completes (s : ParserState) (us : List Token) (e : Expr) (stack : List Frame) : Prop :=
  ∃ s' tree pool, s.after us = .ok s' ∧ s'.phase = .operator tree ∧
    Closes (s'.stack, tree, s'.pool) (stack, e, pool)

/-- What is open above `stack` ends with the phrase `e` of the category. -/
def EndsWith (s : ParserState) (c : Category) (e : Expr) (stack : List Frame) : Prop :=
  ∃ inner tree, s.phase = .operator tree ∧ s.stack = inner ++ stack ∧
    (∀ frame ∈ inner, c.strength ≤ frame.strength) ∧ ended inner tree = e

variable {c d : Category} {s s' : ParserState} {t : Token} {us : List Token} {e e' : Expr}
  {stack inner : List Frame} {frame : Frame} {pool pool' : NodePool} {strength : Nat}
  {r : List Frame × Expr × NodePool}

theorem eq_ended_of_build (h : build pool e frame = .ok (e', pool')) : e' = frame.ended e := by
  cases frame with
  | sum | product | power => exact (joined_of_build h).1
  | negation => exact (negation_of_build h).1
  | group | call =>
    cases h
    rfl

theorem size_le_ended (h : ∀ frame ∈ inner, 1 ≤ frame.strength) (e : Expr) :
    e.size + inner.length ≤ (ended inner e).size := by
  induction inner generalizing e with
  | nil => exact Nat.le_refl _
  | cons frame inner ih =>
    obtain ⟨hs, hin⟩ := List.forall_mem_cons.1 h
    have hlt := Frame.size_lt_ended hs e
    have hle := ih hin (frame.ended e)
    change _ ≤ (ended inner (frame.ended e)).size
    rw [List.length_cons]
    omega

theorem Closes.exists_inner {q : List Frame × Expr × NodePool} (h : Closes q r) :
    ∃ inner, q.1 = inner ++ r.1 ∧ r.2.1 = ended inner q.2.1 ∧
      ∀ frame ∈ inner, 1 ≤ frame.strength := by
  induction h with
  | refl r => exact ⟨[], rfl, rfl, by simp⟩
  | @close frame stack e e' pool pool' r hs hb _ ih =>
    obtain ⟨inner, hstack, htree, hin⟩ := ih
    refine ⟨frame :: inner, congrArg (frame :: ·) hstack, ?_, List.forall_mem_cons.2 ⟨hs, hin⟩⟩
    rw [htree, eq_ended_of_build hb]
    rfl

theorem closes_of_unwind (hs : 1 ≤ strength) (h : unwind strength stack e pool = .ok r) :
    Closes (stack, e, pool) r := by
  induction stack generalizing e pool with
  | nil =>
    cases h
    exact .refl _
  | cons frame stack ih =>
    obtain ⟨-, rfl⟩ | ⟨hle, e', pool', hb, hrest⟩ := unwind_cons_eq_ok h
    · exact .refl _
    · exact .close (Nat.le_trans hs hle) hb (ih hrest)

theorem Closes.above_or_through {q : List Frame × Expr × NodePool} (h : Closes q r)
    (hq : stack <:+ q.1) : stack <:+ r.1 ∨ ∃ e pool, Closes q (stack, e, pool) := by
  induction h with
  | refl r => exact .inl hq
  | @close frame rest e e' pool pool' r hs hb _ ih =>
    rcases List.suffix_cons_iff.1 hq with rfl | hrest
    · exact .inr ⟨e, pool, .refl _⟩
    · exact (ih hrest).imp_right fun ⟨e, pool, hclosed⟩ => ⟨e, pool, .close hs hb hclosed⟩

theorem eq_of_unwind_append (hin : ∀ frame ∈ inner, strength ≤ frame.strength)
    (hbelow : HeldBelow strength stack) (h : unwind strength (inner ++ stack) e pool = .ok r) :
    r.1 = stack ∧ r.2.1 = ended inner e := by
  induction inner generalizing e pool with
  | nil =>
    rw [List.nil_append, unwind_of_heldBelow hbelow] at h
    cases h
    exact ⟨rfl, rfl⟩
  | cons frame inner ih =>
    obtain ⟨hs, hin⟩ := List.forall_mem_cons.1 hin
    obtain ⟨hlt, -⟩ | ⟨-, e', pool', hb, hrest⟩ := unwind_cons_eq_ok h
    · omega
    · rw [eq_ended_of_build hb] at hrest
      exact ih hin hrest

theorem EndsWith.mono (h : s.EndsWith c e stack) (hd : d.strength ≤ c.strength) :
    s.EndsWith d e stack := by
  obtain ⟨inner, tree, hp, hstack, hin, htree⟩ := h
  exact ⟨inner, tree, hp, hstack, fun frame hf => Nat.le_trans hd (hin frame hf), htree⟩

theorem EndsWith.exact (h : s.EndsWith c e stack) (hc : 3 < c.strength) :
    s.phase = .operator e ∧ s.stack = stack := by
  obtain ⟨inner, tree, hp, hstack, hin, rfl⟩ := h
  cases inner with
  | nil => exact ⟨hp, hstack⟩
  | cons frame inner =>
    have hs := hin frame List.mem_cons_self
    have hle := frame.strength_le
    omega

theorem EndsWith.close (h : s.EndsWith d e (frame :: stack)) (hd : c.strength ≤ d.strength)
    (hs : c.strength ≤ frame.strength) : s.EndsWith c (frame.ended e) stack := by
  obtain ⟨inner, tree, hp, hstack, hin, rfl⟩ := h
  refine ⟨inner ++ [frame], tree, hp, by simp [hstack], ?_, by simp [ended]⟩
  intro f hf
  rcases List.mem_append.1 hf with hf | hf
  · exact Nat.le_trans hd (hin f hf)
  · rwa [List.mem_singleton.1 hf]

/-- An operator that holds its operands as tightly as the category finds the phrase complete. -/
theorem EndsWith.unwind (h : s.EndsWith c e stack) (hbelow : HeldBelow c.strength stack)
    {tree : Expr} (hp : s.phase = .operator tree)
    (hu : unwind c.strength s.stack tree s.pool = .ok r) : r.1 = stack ∧ r.2.1 = e := by
  obtain ⟨inner, tree', hp', hstack, hin, rfl⟩ := h
  cases hp.symm.trans hp'
  rw [hstack] at hu
  exact eq_of_unwind_append hin hbelow hu

/-- Wherever a phrase of the category can begin, its tokens lead to a state in which what is open
above ends with it. -/
def Read (c : Category) (us : List Token) (e : Expr) : Prop :=
  ∀ {s s' : ParserState}, s.due = .nothing → s.Begins c → s.after us = .ok s' →
    s'.EndsWith c e s.stack

theorem endsWith_of_complete (hp : s.phase = .operator e) : s.EndsWith c e s.stack :=
  ⟨[], e, hp, rfl, by simp, rfl⟩

theorem Read.bracketed {sign : List Token} {closing : Token} (ih : Read .expression us e)
    (ho : s.Opens t sign frame) (hs : frame.strength = 0) (hk : closing.kind = .rightParen)
    (hd : s.due = .nothing) (h : s.after (t :: (sign ++ (us ++ [closing]))) = .ok s') :
    s'.EndsWith .primary (frame.enclosed closing e) s.stack := by
  have hbelow : HeldBelow Category.expression.strength (frame :: s.stack) :=
    heldBelow_cons.2 (by rw [hs]; decide)
  obtain ⟨s₁, hinner, hclose⟩ := after_append_eq_ok_iff.1 (of_after_opens ho hd h).2
  have hends : s₁.EndsWith .expression e (frame :: s.stack) := ih rfl ⟨rfl, fun _ => hbelow⟩ hinner
  obtain ⟨inner, tree, hp, -⟩ := id hends
  rw [after_singleton, move_operator (settled_of_after rfl hinner) hp] at hclose
  obtain ⟨s₂, hr, hsettle⟩ := bind_eq_ok_iff.1 hclose
  simp only [readOperator, hk] at hr
  obtain ⟨-, bracket, stack, inner, pool, hu, rfl⟩ := of_readClosing hr hsettle
  obtain ⟨hstack, rfl⟩ := hends.unwind hbelow hp hu
  cases hstack
  exact endsWith_of_complete rfl

theorem Read.opened {sign : List Token} (ih : Read .factor us e)
    (ho : s.Opens t sign frame) (hs : 3 ≤ frame.strength) (hd : s.due = .nothing)
    (h : s.after (t :: (sign ++ us)) = .ok s') : s'.EndsWith .factor (frame.ended e) s.stack :=
  have hends : s'.EndsWith .factor e (frame :: s.stack) :=
    ih rfl ⟨rfl, heldBelow_of_two_lt (by decide)⟩ (of_after_opens ho hd h).2
  hends.close (Nat.le_refl _) hs

theorem Read.joined {op : Operator} {sign : Token} {left right : Expr} {ts : List Token}
    (ihl : Read op.leftCategory ts left) (hk : sign.kind = op.tokenKind) (ho : op ≠ .pow)
    (ihr : Read op.rightCategory us right) (hd : s.due = .nothing) (hb : s.Begins op.category)
    (h : s.after (ts ++ sign :: us) = .ok s') :
    s'.EndsWith op.category (.joined op left right) s.stack := by
  have hleft : op.leftCategory.strength = op.strength := by
    rw [op.strength_leftCategory, if_neg ho]
  have hright : op.rightCategory.strength = op.strength + 1 := by
    rw [op.strength_rightCategory, if_neg ho]
  have hbelow : HeldBelow op.leftCategory.strength s.stack := by
    rw [hleft, ← op.strength_category]
    apply hb.2
    rw [op.strength_category]
    exact Nat.le_of_lt_succ (Operator.strength_lt_three ho)
  obtain ⟨s₁, hread, hrest⟩ := after_append_eq_ok_iff.1 h
  obtain ⟨s₂, hsign, hrest⟩ := after_cons_eq_ok_iff.1 hrest
  have hd₁ := settled_of_after hd hread
  have hends : s₁.EndsWith op.leftCategory left s.stack := ihl hd ⟨hb.1, fun _ => hbelow⟩ hread
  obtain ⟨_, tree, hp, -⟩ := id hends
  rw [move_operator hd₁ hp, readOperator_of_tokenKind hk ho] at hsign
  obtain ⟨s₃, hr, hs⟩ := bind_eq_ok_iff.1 hsign
  obtain ⟨stack, operand, pool, hu, rfl⟩ := of_readInfix hd₁ hr hs
  rw [← hleft] at hu
  obtain ⟨rfl, rfl⟩ : stack = s.stack ∧ operand = left := hends.unwind hbelow hp hu
  have htop : (op.frame operand).strength = op.category.strength := by
    rw [op.strength_frame, op.strength_category]
  rw [← op.ended_frame]
  refine (ihr rfl ⟨rfl, fun _ => heldBelow_cons.2 ?_⟩ hrest).close ?_ (Nat.le_of_eq htop.symm)
  · rw [op.strength_frame, hright]
    exact Nat.lt_succ_self _
  · rw [op.strength_category, hright]
    exact Nat.le_succ _

/-- Behind the tokens of a phrase, what is open above the stack on which it began ends with it. -/
theorem read_of_derives (h : Derives c us e) : Read c us e := by
  induction h using Derives.byRules with
  | @number t ht =>
    rintro s s' hd ⟨hp, -⟩ h
    rw [after_singleton, move_operand hd hp, readOperand, ht] at h
    rw [of_settle_completed h]
    exact endsWith_of_complete rfl
  | @named t ht =>
    rintro s s' hd ⟨hp, -⟩ h
    have hr : s.readOperand t = .ok (s.completed s.stack (.named t.text (some t.span))) := by
      rcases ht with ht | ht <;> simp only [readOperand, ht]
    rw [after_singleton, move_operand hd hp, hr] at h
    rw [of_settle_completed h]
    exact endsWith_of_complete rfl
  | call hn ho _ hc ih =>
    rintro s s' hd ⟨hp, -⟩ h
    exact ih.bracketed (.call hp hn ho) rfl hc hd h
  | group ho _ hc ih =>
    rintro s s' hd ⟨hp, -⟩ h
    exact ih.bracketed (.group hp ho) rfl hc hd h
  | weaken _ hc ih =>
    rintro s s' hd ⟨hp, hbelow⟩ h
    refine (ih hd ⟨hp, fun hle frame hf => ?_⟩ h).mono hc
    exact Nat.lt_of_lt_of_le (hbelow (Nat.le_trans hc hle) frame hf) hc
  | factorial _ hb ih =>
    rintro s s' hd ⟨hp, -⟩ h
    obtain ⟨s₁, hinner, hbang⟩ := after_append_eq_ok_iff.1 h
    obtain ⟨hp₁, hstack⟩ := (ih hd ⟨hp, heldBelow_of_two_lt (by decide)⟩ hinner).exact (by decide)
    rw [after_singleton, move_operator (settled_of_after hd hinner) hp₁, readOperator, hb] at hbang
    rw [of_settle_completed hbang, ← hstack]
    exact endsWith_of_complete rfl
  | negation hm _ ih =>
    rintro s s' hd ⟨hp, -⟩ h
    exact ih.opened (.negation hp hm) (Nat.le_refl 3) hd h
  | @joined op sign ts us left right _ hu _ ihl ihr =>
    intro s s' hd hb h
    by_cases ho : op = .pow
    · subst ho
      obtain ⟨s₁, hleft, hrest⟩ := after_append_eq_ok_iff.1 h
      have hbegins : s.Begins .suffixed := ⟨hb.1, heldBelow_of_two_lt (by decide)⟩
      obtain ⟨hp₁, hstack⟩ := (ihl hd hbegins hleft).exact (by decide)
      rw [← hstack]
      exact ihr.opened (.power hp₁ hu) (Nat.le_refl 3) (settled_of_after hd hleft) hrest
    · exact ihl.joined hu ho ihr hd hb h

/-- Every construct that is closed makes the tree larger. -/
theorem eq_nil_of_ended_append {more : List Frame} (h : ∀ frame ∈ more, 1 ≤ frame.strength)
    (he : ended (inner ++ more) e = ended inner e) : more = [] := by
  have hle := size_le_ended h (ended inner e)
  rw [ended, List.foldl_append] at he
  change ended more (ended inner e) = ended inner e at he
  rw [he] at hle
  exact List.eq_nil_of_length_eq_zero (by omega)

/-- So the tree tells how many constructs have been closed. -/
theorem eq_of_ended_eq {closed rest : List Frame} (hin : ∀ frame ∈ inner, 1 ≤ frame.strength)
    (hclosed : ∀ frame ∈ closed, 1 ≤ frame.strength) (he : ended inner e = ended closed e)
    (h : inner ++ stack = closed ++ rest) : rest = stack := by
  rcases List.append_eq_append_iff.1 h with ⟨more, rfl, rfl⟩ | ⟨more, rfl, rfl⟩
  · rw [eq_nil_of_ended_append (fun frame hf => hclosed frame (by simp [hf])) he.symm]
    rfl
  · rw [eq_nil_of_ended_append (fun frame hf => hin frame (by simp [hf])) he]
    rfl

/-- When the tree of a phrase is complete, as much is open as where the phrase began. -/
theorem stack_of_completes (hd : s.due = .nothing) (hb : s.Begins c) (h : Derives c us e)
    (hc : s.Completes us e stack) : stack = s.stack := by
  obtain ⟨s', tree, pool, hafter, hp, hcloses⟩ := hc
  obtain ⟨inner, tree', hp', hstack, hin, he⟩ := read_of_derives h hd hb hafter
  cases hp.symm.trans hp'
  obtain ⟨closed, hstack', he', hclosed⟩ := hcloses.exists_inner
  have hin (frame : Frame) (hf : frame ∈ inner) : 1 ≤ frame.strength :=
    Nat.le_trans c.one_le_strength (hin frame hf)
  exact eq_of_ended_eq hin hclosed (he.trans he') (hstack.symm.trans hstack')

/-- One move leaves what is open below, or the operand above it has been complete. -/
theorem above_or_closed_of_moves (h : Moves s t s') (hs : stack <:+ s.stack) :
    stack <:+ s'.stack ∨ ∃ tree e pool, s.phase = .operator tree ∧
      Closes (s.stack, tree, s.pool) (stack, e, pool) := by
  cases h with
  | leaf | name | factorial => exact .inl hs
  | group | negation | call | power => exact .inl (hs.trans (List.suffix_cons ..))
  | @joins op tree left rest pool hp _ ho hu =>
    have hclosed := closes_of_unwind op.one_le_strength hu
    rcases hclosed.above_or_through hs with hle | ⟨e, pool, hclosed⟩
    · exact .inl (hle.trans (List.suffix_cons ..))
    · exact .inr ⟨tree, e, pool, hp, hclosed⟩
  | @closes tree inner bracket rest pool hp _ hu =>
    have hclosed := closes_of_unwind (Nat.le_refl 1) hu
    rcases hclosed.above_or_through hs with hle | ⟨e, pool, hclosed⟩
    · rcases List.suffix_cons_iff.1 hle with rfl | hle
      · exact .inr ⟨tree, inner, pool, hp, hclosed⟩
      · exact .inl hle
    · exact .inr ⟨tree, e, pool, hp, hclosed⟩

/-- Reading on leaves what is open where it starts, until an operand is complete above it. -/
theorem above_or_completes (hd : s.due = .nothing) (h : s.after us = .ok s') :
    s.stack <:+ s'.stack ∨ ∃ vs e, vs <+: us ∧ s.Completes vs e s.stack := by
  induction us using List.reverseRecOn generalizing s' with
  | nil =>
    cases h
    exact .inl List.suffix_rfl
  | append_singleton us t ih =>
    obtain ⟨s₁, hus, ht⟩ := after_append_eq_ok_iff.1 h
    rw [after_singleton] at ht
    rcases ih hus with habove | ⟨vs, e, hvs, hc⟩
    · have hmoves := moves_of_move (settled_of_after hd hus) ht
      rcases above_or_closed_of_moves hmoves habove with habove | ⟨tree, e, pool, hp, hclosed⟩
      · exact .inl habove
      · exact .inr ⟨us, e, List.prefix_append .., s₁, tree, pool, hus, hp, hclosed⟩
    · exact .inr ⟨vs, e, hvs.trans (List.prefix_append ..), hc⟩

end ParserState

end Calculator
