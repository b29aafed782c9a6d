import Calculator.Proofs.Grammar.Stack

/-!
# Every phrase is read

Behind a phrase the parser may still have open constructs of the phrase on its stack: it closes them
when the next token shows that they end. `Reads` therefore compares stacks after closing what holds
at least as tightly as the phrase. The pool needs room for the nodes of the phrase and for those
that are reserved, and no more.
-/

namespace Calculator.ParserState

variable {c : Category} {ts : List Token} {e : Expr} {s : ParserState} {stack : List Frame}
  {pool : NodePool} {ending : Except MathError Token}

/-- The parser waits for an operand on the given stack, once its check is made. -/
def Awaits (s : ParserState) (stack : List Frame) (pool : NodePool) : Prop :=
  s.settle = .ok ⟨pool, stack, .operand, .nothing⟩

def behind (pool : NodePool) (stack : List Frame) (operand : Expr) : ParserState :=
  ⟨pool, stack, .operator operand, .node operand.span⟩

/-- From `s` the tokens `ts` lead behind an operand, and closing what binds as tightly as `c` has
built the phrase `e` on top of `stack`. -/
def Reads (c : Category) (s : ParserState) (stack : List Frame) (pool : NodePool)
    (ts : List Token) (e : Expr) : Prop :=
  ∃ stack' operand pool', pool'.capacity = pool.capacity ∧
    (pool'.count : Int) < pool'.capacity ∧
    (∀ ending rest, s.run ending (ts ++ rest) = (behind pool' stack' operand).run ending rest) ∧
    ∀ k ≤ c.strength,
      unwind k stack' operand (pool'.grown 1) = unwind k stack e (pool.grown e.size)

/-- There is room for the nodes of `e` besides those that are reserved. -/
def HasRoom (pool : NodePool) (stack : List Frame) (e : Expr) : Prop :=
  (pool.count : Int) + reserved stack + e.size ≤ pool.capacity

theorem run_cons {t : Token} {s' : ParserState} (h : s.step t = .ok s') :
    s.run ending (t :: ts) = s'.run ending ts := by
  simp only [run, h]
  rfl

theorem step_of_awaits {t : Token} (h : Awaits s stack pool) :
    s.step t = readOperand ⟨pool, stack, .operand, .nothing⟩ t := by
  simp only [Awaits] at h
  simp only [step, h]
  rfl

theorem settle_behind {operand : Expr} (h : (pool.count : Int) < pool.capacity) :
    (behind pool stack operand).settle =
      .ok ⟨pool.grown 1, stack, .operator operand, .nothing⟩ := by
  simp only [settle, behind, NodePool.take_of_lt h]
  rfl

theorem step_behind {operand : Expr} {t : Token} (h : (pool.count : Int) < pool.capacity) :
    (behind pool stack operand).step t =
      readOperator ⟨pool.grown 1, stack, .operator operand, .nothing⟩ operand t := by
  simp only [step, settle_behind h]
  rfl

theorem awaits_opening {frame : Frame} {span : Span} {phase : Phase} {due : Due}
    (h : (pool.count : Int) + reserved (frame :: stack) ≤ pool.capacity) :
    Awaits (opening ⟨pool, stack, phase, due⟩ frame span) (frame :: stack) pool := by
  simp only [Awaits, opening, settle, NodePool.reserve_of_le h]
  rfl

/-- A phrase that is complete in itself is read when its last node is due. -/
theorem reads_of_run {pool' : NodePool} (hp : pool'.grown 1 = pool.grown e.size)
    (hroom : HasRoom pool stack e)
    (h : ∀ ending rest, s.run ending (ts ++ rest) = (behind pool' stack e).run ending rest) :
    Reads c s stack pool ts e := by
  have hc := congrArg NodePool.capacity hp
  have hn := congrArg NodePool.count hp
  simp only [NodePool.capacity_grown, NodePool.count_grown] at hc hn
  simp only [HasRoom] at hroom
  refine ⟨stack, e, pool', hc, by omega, h, ?_⟩
  intro k _
  rw [hp]

/-- Behind a phrase that nothing can close, the parser holds exactly the phrase. -/
theorem Reads.exact (h : Reads c s stack pool ts e) (hc : 3 < c.strength) :
    ∃ pool', pool'.grown 1 = pool.grown e.size ∧ (pool'.count : Int) < pool'.capacity ∧
      ∀ ending rest, s.run ending (ts ++ rest) = (behind pool' stack e).run ending rest := by
  obtain ⟨stack', operand, pool', -, hroom, hrun, hunwind⟩ := h
  have heq := hunwind c.strength (Nat.le_refl _)
  rw [unwind_of_heldBelow (heldBelow_of_lt hc _), unwind_of_heldBelow (heldBelow_of_lt hc _)] at heq
  simp only [Except.ok.injEq, Prod.mk.injEq] at heq
  obtain ⟨rfl, rfl, hp⟩ := heq
  exact ⟨pool', hp, hroom, hrun⟩

theorem Reads.mono {d : Category} (h : Reads c s stack pool ts e) (hd : d.strength ≤ c.strength) :
    Reads d s stack pool ts e := by
  obtain ⟨stack', operand, pool', hcap, hroom, hrun, hunwind⟩ := h
  exact ⟨stack', operand, pool', hcap, hroom, hrun, fun k hk => hunwind k (Nat.le_trans hk hd)⟩

/-- A construct whose operand has been read ends with its operand. -/
theorem Reads.close {d : Category} {frame : Frame} {s' : ParserState} {pool' : NodePool}
    {us : List Token} {e' : Expr} (h : Reads d s' (frame :: stack) pool' us e')
    (hrun : ∀ ending rest, s.run ending (ts ++ rest) = s'.run ending (us ++ rest))
    (hd : c.strength ≤ d.strength) (hs : c.strength ≤ frame.strength)
    (hcap : pool'.capacity = pool.capacity)
    (hb : build (pool'.grown e'.size) e' frame = .ok (e, pool.grown e.size)) :
    Reads c s stack pool ts e := by
  obtain ⟨stack', operand, pool'', hcap', hroom, hrun', hunwind⟩ := h
  refine ⟨stack', operand, pool'', hcap'.trans hcap, hroom, ?_, ?_⟩
  · intro ending rest
    rw [hrun, hrun']
  · intro k hk
    rw [hunwind k (Nat.le_trans hk hd), unwind_cons (Nat.le_trans hk hs) hb]

theorem reads_leaf {t : Token} (h : Awaits s stack pool)
    (ht : readOperand ⟨pool, stack, .operand, .nothing⟩ t = .ok (behind pool stack e))
    (he : e.size = 1) (hroom : HasRoom pool stack e) : Reads c s stack pool [t] e := by
  apply reads_of_run (by rw [he]) hroom
  intro ending rest
  exact run_cons ((step_of_awaits h).trans ht)

theorem Reads.closing {frame : Frame} {s' : ParserState} {us : List Token} {inner : Expr}
    {t : Token} (h : Reads .expression s' (frame :: stack) pool us inner)
    (hf : frame.strength = 0)
    (ht : ∀ pool' stack' operand pool'',
      unwind 1 stack' operand pool' = .ok (frame :: stack, inner, pool'') →
      readOperator ⟨pool', stack', .operator operand, .nothing⟩ operand t =
        .ok (behind pool'' stack e)) :
    ∀ ending rest, s'.run ending (us ++ t :: rest) =
      (behind (pool.grown inner.size) stack e).run ending rest := by
  obtain ⟨stack', operand, pool', -, hroom, hrun, hunwind⟩ := h
  have hu := hunwind 1 (Nat.le_refl _)
  rw [unwind_of_heldBelow (heldBelow_cons.2 (by omega))] at hu
  intro ending rest
  rw [hrun, run_cons ((step_behind hroom).trans (ht _ _ _ _ hu))]

theorem reads_group {opening closing : Token} {inner : Expr} (ho : opening.kind = .leftParen)
    (hc : closing.kind = .rightParen)
    (ih : ∀ {s' : ParserState}, Awaits s' (.group opening :: stack) pool →
      Reads .expression s' (.group opening :: stack) pool ts inner)
    (h : Awaits s stack pool)
    (hroom : HasRoom pool stack (.group inner (some (opening.span.merge closing.span)))) :
    Reads c s stack pool (opening :: (ts ++ [closing]))
      (.group inner (some (opening.span.merge closing.span))) := by
  have hsize : (pool.count : Int) + reserved (.group opening :: stack) ≤ pool.capacity := by
    simp only [HasRoom, Expr.size] at hroom
    simp only [reserved, Frame.reserved]
    omega
  have hread := step_of_awaits (t := opening) h
  simp only [readOperand, ho] at hread
  obtain ⟨s', hstep, hopen⟩ : ∃ s', s.step opening = .ok s' ∧
      Awaits s' (.group opening :: stack) pool := ⟨_, hread, awaits_opening hsize⟩
  have hclose := (ih hopen).closing (t := closing) rfl
    (e := .group inner (some (opening.span.merge closing.span)))
    (by
      intro pool' stack' operand pool'' hu
      simp only [readOperator, hc, readClosing, hu]
      rfl)
  apply reads_of_run (by rw [Expr.size, NodePool.grown_grown]) hroom
  intro ending rest
  rw [List.cons_append, run_cons hstep, List.append_assoc, List.singleton_append]
  exact hclose ending rest

theorem reads_call {f : FunctionKind} {name opening closing : Token} {argument : Expr}
    (hn : name.kind = .function f) (ho : opening.kind = .leftParen)
    (hc : closing.kind = .rightParen)
    (ih : ∀ {s' : ParserState}, Awaits s' (.call f name opening :: stack) pool →
      Reads .expression s' (.call f name opening :: stack) pool ts argument)
    (h : Awaits s stack pool)
    (hroom : HasRoom pool stack (.call f argument (some (name.span.merge closing.span)))) :
    Reads c s stack pool (name :: opening :: (ts ++ [closing]))
      (.call f argument (some (name.span.merge closing.span))) := by
  have hsize : (pool.count : Int) + reserved (.call f name opening :: stack) ≤ pool.capacity := by
    simp only [HasRoom, Expr.size] at hroom
    simp only [reserved, Frame.reserved]
    omega
  have hname := step_of_awaits (t := name) h
  simp only [readOperand, hn] at hname
  obtain ⟨s', hstep, hopen⟩ : ∃ s', step ⟨pool, stack, .arguments f name, .nothing⟩ opening =
      .ok s' ∧ Awaits s' (.call f name opening :: stack) pool :=
    ⟨_, if_pos ho, awaits_opening hsize⟩
  have hclose := (ih hopen).closing (t := closing) rfl
    (e := .call f argument (some (name.span.merge closing.span)))
    (by
      intro pool' stack' operand pool'' hu
      simp only [readOperator, hc, readClosing, hu]
      rfl)
  apply reads_of_run (by rw [Expr.size, NodePool.grown_grown]) hroom
  intro ending rest
  rw [List.cons_append, run_cons hname, List.cons_append, run_cons hstep, List.append_assoc,
    List.singleton_append]
  exact hclose ending rest

theorem reads_factorial {bang : Token} (hb : bang.kind = .bang)
    (ih : Reads .suffixed s stack pool ts e)
    (hroom : HasRoom pool stack (.factorial e (mergeSpans e.span (some bang.span)))) :
    Reads c s stack pool (ts ++ [bang])
      (.factorial e (mergeSpans e.span (some bang.span))) := by
  obtain ⟨pool', hp, hlt, hrun⟩ := ih.exact (by decide)
  have hstep : (behind pool' stack e).step bang = _ := step_behind hlt
  simp only [readOperator, hb, hp] at hstep
  apply reads_of_run (by rw [Expr.size, NodePool.grown_grown]) hroom
  intro ending rest
  rw [List.append_assoc, hrun, List.singleton_append, run_cons hstep]
  rfl

theorem reads_negation {minus : Token} (hm : minus.kind = .minus)
    (ih : ∀ {s' : ParserState}, Awaits s' (.negation minus :: stack) pool →
      Reads .factor s' (.negation minus :: stack) pool ts e)
    (h : Awaits s stack pool) (hroom : HasRoom pool stack (.negation e (some minus.span))) :
    Reads .factor s stack pool (minus :: ts) (.negation e (some minus.span)) := by
  simp only [HasRoom, Expr.negation, Expr.size] at hroom
  have hsize : (pool.count : Int) + reserved (.negation minus :: stack) ≤ pool.capacity := by
    simp only [reserved, Frame.reserved]
    omega
  have hread := step_of_awaits (t := minus) h
  simp only [readOperand, hm] at hread
  obtain ⟨s', hstep, hopen⟩ : ∃ s', s.step minus = .ok s' ∧
      Awaits s' (.negation minus :: stack) pool := ⟨_, hread, awaits_opening hsize⟩
  refine (ih hopen).close ?_ (Nat.le_refl _) (Nat.le_refl _) rfl ?_
  · intro ending rest
    rw [List.cons_append, run_cons hstep]
  · rw [build_negation (by simp only [NodePool.count_grown, NodePool.capacity_grown]; omega),
      NodePool.grown_grown]
    simp only [Expr.negation, Expr.size, show 1 + e.size + 1 = e.size + 2 by omega]

theorem reads_power {caret : Token} {us : List Token} {base exponent : Expr}
    (hk : caret.kind = .caret) (ihl : Reads .suffixed s stack pool ts base)
    (ihr : ∀ {s' : ParserState}, Awaits s' (.power base :: stack) (pool.grown base.size) →
      Reads .factor s' (.power base :: stack) (pool.grown base.size) us exponent)
    (hroom : HasRoom pool stack (.joined .pow base exponent)) :
    Reads .factor s stack pool (ts ++ caret :: us) (.joined .pow base exponent) := by
  simp only [HasRoom, Expr.joined, Expr.size] at hroom
  have hsize : ((pool.grown base.size).count : Int) + reserved (.power base :: stack) ≤
      (pool.grown base.size).capacity := by
    simp only [reserved, Frame.reserved, NodePool.count_grown, NodePool.capacity_grown]
    omega
  obtain ⟨pool', hp, hlt, hrun⟩ := ihl.exact (by decide)
  have hread : (behind pool' stack base).step caret = _ := step_behind hlt
  simp only [readOperator, hk, hp] at hread
  obtain ⟨s', hstep, hopen⟩ : ∃ s', (behind pool' stack base).step caret = .ok s' ∧
      Awaits s' (.power base :: stack) (pool.grown base.size) :=
    ⟨_, hread, awaits_opening hsize⟩
  refine (ihr hopen).close ?_ (Nat.le_refl _) (Nat.le_refl _) rfl ?_
  · intro ending rest
    rw [List.append_assoc, hrun, List.cons_append, run_cons hstep]
  · simp only [build]
    rw [build_joined (by simp only [NodePool.count_grown, NodePool.capacity_grown]; omega)]
    simp only [NodePool.grown_grown, Expr.joined, Expr.size]

theorem reads_joined {d : Category} {op : Operator} {sign : Token} {us : List Token}
    {left right : Expr} (frame : Expr → Frame)
    (hs : ∀ s' tree, readOperator s' tree sign = s'.readInfix tree c.strength frame)
    (hf : (frame left).strength = c.strength)
    (hb : ∀ pool, build pool right (frame left) = build.binary pool right op left)
    (hd : c.strength ≤ d.strength) (hbelow : HeldBelow c.strength stack)
    (ihl : Reads c s stack pool ts left)
    (ihr : ∀ {s' : ParserState}, Awaits s' (frame left :: stack) (pool.grown left.size) →
      Reads d s' (frame left :: stack) (pool.grown left.size) us right)
    (hroom : HasRoom pool stack (.joined op left right)) :
    Reads c s stack pool (ts ++ sign :: us) (.joined op left right) := by
  simp only [HasRoom, Expr.joined, Expr.size] at hroom
  obtain ⟨stack', operand, pool', -, hlt, hrun, hunwind⟩ := ihl
  have hu := hunwind c.strength (Nat.le_refl _)
  rw [unwind_of_heldBelow hbelow] at hu
  have hread : (behind pool' stack' operand).step sign = _ := step_behind hlt
  simp only [hs, readInfix, hu] at hread
  obtain ⟨s', hstep, hopen⟩ : ∃ s', (behind pool' stack' operand).step sign = .ok s' ∧
      Awaits s' (frame left :: stack) (pool.grown left.size) := ⟨_, hread, rfl⟩
  refine (ihr hopen).close ?_ hd (Nat.le_of_eq hf.symm) rfl ?_
  · intro ending rest
    rw [List.append_assoc, hrun, List.cons_append, run_cons hstep]
  · rw [hb, build_joined (by simp only [NodePool.count_grown, NodePool.capacity_grown]; omega)]
    simp only [NodePool.grown_grown, Expr.joined, Expr.size]

theorem HasRoom.mono {frames : List Frame} {pool' : NodePool} {part : Expr}
    (h : HasRoom pool stack e) (hcap : pool'.capacity = pool.capacity)
    (hle : pool'.count + reserved frames + part.size ≤ pool.count + reserved stack + e.size) :
    HasRoom pool' frames part := by
  simp only [HasRoom] at *
  omega

theorem HasRoom.left {op : Operator} {left right : Expr}
    (h : HasRoom pool stack (.joined op left right)) : HasRoom pool stack left := by
  apply h.mono rfl
  simp only [Expr.joined, Expr.size]
  omega

/-- The right operand is read on top of a frame that holds the left one, and which reserves at most
the node of the operator. -/
theorem HasRoom.right {op : Operator} {left right : Expr} {frame : Frame}
    (h : HasRoom pool stack (.joined op left right)) (hf : frame.reserved ≤ 1) :
    HasRoom (pool.grown left.size) (frame :: stack) right := by
  apply h.mono (NodePool.capacity_grown pool left.size)
  simp only [reserved, Expr.joined, Expr.size, NodePool.count_grown]
  omega

/-- A category that holds together tightly asks nothing of the stack. -/
theorem heldBelow_of_two_lt {c : Category} (hc : 2 < c.strength) (hle : c.strength ≤ 2) :
    HeldBelow c.strength stack := absurd hle (Nat.not_le.2 hc)

theorem readOperator_of_multiplicative? {sign : Token} {op : Operator}
    (h : sign.kind.multiplicative? = some op) (s : ParserState) (tree : Expr) :
    s.readOperator tree sign = s.readInfix tree 2 (.product op) := by
  obtain ⟨hk, rfl⟩ | ⟨hk, rfl⟩ := TokenKind.multiplicative?_eq_some_iff.1 h
  · simp only [readOperator, hk]
  · simp only [readOperator, hk]

theorem readOperator_of_additive? {sign : Token} {op : Operator}
    (h : sign.kind.additive? = some op) (s : ParserState) (tree : Expr) :
    s.readOperator tree sign = s.readInfix tree 1 (.sum op) := by
  obtain ⟨hk, rfl⟩ | ⟨hk, rfl⟩ := TokenKind.additive?_eq_some_iff.1 h
  · simp only [readOperator, hk]
  · simp only [readOperator, hk]

/-- Every phrase is read on top of any stack below which nothing claims its operands. -/
theorem reads_of_derives (h : Derives c ts e) :
    ∀ {s : ParserState} {stack : List Frame} {pool : NodePool}, Awaits s stack pool →
      (c.strength ≤ 2 → HeldBelow c.strength stack) → HasRoom pool stack e →
      Reads c s stack pool ts e := by
  induction h with
  | number ht =>
    intro s stack pool hs _ hroom
    exact reads_leaf hs (by simp only [readOperand, ht]; rfl) rfl hroom
  | named ht =>
    intro s stack pool hs _ hroom
    refine reads_leaf hs ?_ rfl hroom
    rcases ht with ht | ht
    · simp only [readOperand, ht]
      rfl
    · simp only [readOperand, ht]
      rfl
  | group ho _ hc ih =>
    intro s stack pool hs _ hroom
    refine reads_group ho hc (fun hs' => ih hs' ?_ ?_) hs hroom
    · intro _
      exact heldBelow_cons.2 Nat.zero_lt_one
    · exact hroom.mono rfl (by simp only [reserved, Frame.reserved, Expr.size]; omega)
  | call hn ho _ hc ih =>
    intro s stack pool hs _ hroom
    refine reads_call hn ho hc (fun hs' => ih hs' ?_ ?_) hs hroom
    · intro _
      exact heldBelow_cons.2 Nat.zero_lt_one
    · exact hroom.mono rfl (by simp only [reserved, Frame.reserved, Expr.size]; omega)
  | primary _ ih =>
    intro s stack pool hs _ hroom
    exact (ih hs (heldBelow_of_two_lt (by decide)) hroom).mono (by decide)
  | factorial _ hb ih =>
    intro s stack pool hs hbelow hroom
    refine reads_factorial hb (ih hs hbelow ?_) hroom
    exact hroom.mono rfl (by simp only [Expr.size]; omega)
  | suffixed _ ih =>
    intro s stack pool hs _ hroom
    exact (ih hs (heldBelow_of_two_lt (by decide)) hroom).mono (by decide)
  | negation hm _ ih =>
    intro s stack pool hs _ hroom
    refine reads_negation hm (fun hs' => ih hs' (heldBelow_of_two_lt (by decide)) ?_) hs hroom
    apply hroom.mono rfl
    simp only [reserved, Frame.reserved, Expr.negation, Expr.size]
    omega
  | power _ hk _ ihl ihr =>
    intro s stack pool hs _ hroom
    exact reads_power hk (ihl hs (heldBelow_of_two_lt (by decide)) hroom.left)
      (fun hs' => ihr hs' (heldBelow_of_two_lt (by decide)) (hroom.right (Nat.le_refl 1))) hroom
  | factor _ ih =>
    intro s stack pool hs _ hroom
    exact (ih hs (heldBelow_of_two_lt (by decide)) hroom).mono (by decide)
  | @product op _ _ _ _ _ _ hsign _ ihl ihr =>
    intro s stack pool hs hbelow hroom
    have below := hbelow (by decide)
    exact reads_joined (d := .factor) (.product op) (readOperator_of_multiplicative? hsign)
      rfl (fun _ => rfl) (by decide) below (ihl hs (fun _ => below) hroom.left)
      (fun hs' => ihr hs' (heldBelow_of_two_lt (by decide)) (hroom.right (Nat.zero_le 1))) hroom
  | term _ ih =>
    intro s stack pool hs hbelow hroom
    refine (ih hs (fun _ => ?_) hroom).mono (by decide)
    intro frame hframe
    exact Nat.lt_trans (hbelow (by decide) frame hframe) (by decide)
  | @sum op _ _ _ _ _ _ hsign _ ihl ihr =>
    intro s stack pool hs hbelow hroom
    have below := hbelow (by decide)
    exact reads_joined (d := .term) (.sum op) (readOperator_of_additive? hsign)
      rfl (fun _ => rfl) (by decide) below (ihl hs (fun _ => below) hroom.left)
      (fun hs' => ihr hs' (fun _ => heldBelow_cons.2 Nat.one_lt_two)
        (hroom.right (Nat.zero_le 1))) hroom

/-- A list of tokens that is an expression is parsed to its tree as soon as the pool holds the
nodes of the tree. -/
theorem run_of_derives {capacity : Int} {fin : Token} (h : Derives .expression ts e)
    (hroom : (e.size : Int) ≤ capacity) :
    (initial capacity).run (.ok fin) ts = .ok ⟨e, e.size⟩ := by
  have hstart : Awaits (initial capacity) [] (.fresh capacity) := rfl
  obtain ⟨stack', operand, pool', -, hlt, hrun, hunwind⟩ :=
    reads_of_derives h hstart (fun _ => heldBelow_nil _)
      (by simpa [HasRoom, NodePool.fresh, reserved] using hroom)
  have hu := hunwind 1 (Nat.le_refl _)
  rw [unwind_of_heldBelow (heldBelow_nil _)] at hu
  rw [← List.append_nil ts, hrun]
  change conclude (behind pool' stack' operand) fin = _
  simp only [conclude, settle_behind hlt]
  change unwind 1 stack' operand (pool'.grown 1) >>= _ = _
  rw [hu]
  change Except.ok (Parsed.mk e ((NodePool.fresh capacity).grown e.size).count) = _
  simp only [NodePool.count_grown, NodePool.fresh, Nat.zero_add]

end Calculator.ParserState
