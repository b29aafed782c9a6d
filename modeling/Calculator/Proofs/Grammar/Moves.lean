import Calculator.Proofs.Grammar.Demand
import Calculator.Proofs.Lexing.Places
import Calculator.Proofs.Outcome

/-!
# The moves of the parser

A token has been dealt with when its check is made, and the check is made when the token behind it
has been read. `move` does both, so that the parser goes from one settled state to the next; `Moves`
says all that one move can do. A parse is a run of moves up to the last token. Where a run of moves
fails, every text fails that has these tokens in front and one token more, whatever comes next.
-/

namespace Calculator

def Operator.frame : Operator → Expr → Frame
  | .add => .sum .add
  | .sub => .sum .sub
  | .mul => .product .mul
  | .div => .product .div
  | .pow => .power

theorem Operator.strength_frame (op : Operator) (left : Expr) :
    (op.frame left).strength = op.strength := by
  cases op <;> rfl

def Frame.enclosed (closing : Token) (inner : Expr) : Frame → Expr
  | .group opening => .group inner (some (opening.span.merge closing.span))
  | .call f name _ => .call f inner (some (name.span.merge closing.span))
  | .sum .. | .product .. | .negation _ | .power _ => inner

theorem TokenList.all_behind (l : TokenList) (ts : List Token) :
    (l.behind ts).all = ts ++ l.all := by
  unfold all behind
  dsimp only
  split
  · exact List.append_assoc ..
  · rfl

namespace ParserState

/-- Reads a token and makes its check, once the token behind it is known. -/
def move (s : ParserState) (t : Token) : Except MathError ParserState := do (← s.step t).settle

def after (s : ParserState) (ts : List Token) : Except MathError ParserState := ts.foldlM move s

def entered (s : ParserState) (frame : Frame) : ParserState :=
  ⟨s.pool, frame :: s.stack, .operand, .nothing⟩

/-- The nodes taken and those reserved for the open constructs and one more fit into the pool. -/
def Admits (s : ParserState) (frame : Frame) : Prop :=
  (s.pool.count : Int) + reserved (frame :: s.stack) ≤ s.pool.capacity

/-- What a token does to a settled state. -/
inductive Moves (s : ParserState) (t : Token) : ParserState → Prop where
  | leaf {tree : Expr} (hp : s.phase = .operand) (hd : Derives .primary [t] tree) :
    Moves s t ⟨s.pool.grown 1, s.stack, .operator tree, .nothing⟩
  | name {f : FunctionKind} (hp : s.phase = .operand) (hk : t.kind = .function f) :
    Moves s t ⟨s.pool, s.stack, .arguments f t, .nothing⟩
  | group (hp : s.phase = .operand) (hk : t.kind = .leftParen) (ha : s.Admits (.group t)) :
    Moves s t (s.entered (.group t))
  | negation (hp : s.phase = .operand) (hk : t.kind = .minus) (ha : s.Admits (.negation t)) :
    Moves s t (s.entered (.negation t))
  | call {f : FunctionKind} {name : Token} (hp : s.phase = .arguments f name)
    (hk : t.kind = .leftParen) (ha : s.Admits (.call f name t)) :
    Moves s t (s.entered (.call f name t))
  | power {base : Expr} (hp : s.phase = .operator base) (hk : t.kind = .caret)
    (ha : s.Admits (.power base)) : Moves s t (s.entered (.power base))
  | factorial {tree : Expr} (hp : s.phase = .operator tree) (hk : t.kind = .bang) :
    Moves s t ⟨s.pool.grown 1, s.stack,
      .operator (.factorial tree (mergeSpans tree.span (some t.span))), .nothing⟩
  | joins {op : Operator} {tree left : Expr} {stack : List Frame} {pool : NodePool}
    (hp : s.phase = .operator tree) (hk : t.kind = op.tokenKind) (ho : op ≠ .pow)
    (hu : unwind op.strength s.stack tree s.pool = .ok (stack, left, pool)) :
    Moves s t ⟨pool, op.frame left :: stack, .operand, .nothing⟩
  | closes {tree inner : Expr} {bracket : Frame} {stack : List Frame} {pool : NodePool}
    (hp : s.phase = .operator tree) (hk : t.kind = .rightParen)
    (hu : unwind 1 s.stack tree s.pool = .ok (bracket :: stack, inner, pool)) :
    Moves s t ⟨pool.grown 1, stack, .operator (bracket.enclosed t inner), .nothing⟩

/-- The token `t`, with the tokens `sign` behind it, opens a construct: a bracket, a unary minus, a
power, or a function with its bracket. -/
inductive Opens (s : ParserState) : Token → List Token → Frame → Prop where
  | group {opening : Token} (hp : s.phase = .operand) (hk : opening.kind = .leftParen) :
    Opens s opening [] (.group opening)
  | negation {minus : Token} (hp : s.phase = .operand) (hk : minus.kind = .minus) :
    Opens s minus [] (.negation minus)
  | power {base : Expr} {caret : Token} (hp : s.phase = .operator base)
    (hk : caret.kind = .caret) : Opens s caret [] (.power base)
  | call {f : FunctionKind} {name opening : Token} (hp : s.phase = .operand)
    (hn : name.kind = .function f) (ho : opening.kind = .leftParen) :
    Opens s name [opening] (.call f name opening)

variable {s s' : ParserState} {t : Token} {stack : List Frame} {frame : Frame} {span : Span}
  {tree : Expr} {e : MathError} {ts us sign : List Token} {ending : Except MathError Token}

theorem settled_of_settle (h : s.settle = .ok s') : s'.due = .nothing :=
  ((yields_settle s).of_ok h).2.2

theorem settle_of_settled (hd : s.due = .nothing) : s.settle = .ok s := by
  simp only [settle, hd]

theorem eq_of_settle (h : s.settle = .ok s') (hd : s.due = .nothing) : s' = s :=
  (Except.ok.inj ((settle_of_settled hd).symm.trans h)).symm

theorem of_settle_completed (h : (s.completed stack tree).settle = .ok s') :
    s' = ⟨s.pool.grown 1, stack, .operator tree, .nothing⟩ := by
  obtain ⟨pool, htake, hs⟩ := bind_eq_ok_iff.1 h
  obtain ⟨-, rfl⟩ := NodePool.take_eq_ok_iff.1 htake
  exact (Except.ok.inj hs).symm

/-- The check for a construct looks at what is reserved for it and all around it. -/
theorem settle_opening : (s.opening frame span).settle =
    if s.pool.capacity < s.pool.count + reserved (frame :: s.stack)
      then .error (s.pool.exhausted (some span)) else .ok (s.entered frame) := by
  change (do s.pool.reserve (reserved (frame :: s.stack)) (some span); return s.entered frame) = _
  unfold NodePool.reserve
  by_cases hroom : s.pool.capacity < s.pool.count + reserved (frame :: s.stack)
  · rw [if_pos hroom, if_pos hroom]
    rfl
  · rw [if_neg hroom, if_neg hroom]
    rfl

theorem of_settle_opening (h : (s.opening frame span).settle = .ok s') :
    s.Admits frame ∧ s' = s.entered frame := by
  rw [settle_opening] at h
  split at h
  · cases h
  · next hroom => exact ⟨Int.not_lt.1 hroom, (Except.ok.inj h).symm⟩

theorem settled_of_move (h : s.move t = .ok s') : s'.due = .nothing := by
  obtain ⟨s₁, -, hs⟩ := bind_eq_ok_iff.1 h
  exact settled_of_settle hs

theorem move_operand (hd : s.due = .nothing) (hp : s.phase = .operand) :
    s.move t = s.readOperand t >>= settle := by
  simp only [move, step, settle_of_settled hd, bind, Except.bind, hp]

theorem move_arguments {f : FunctionKind} {name : Token} (hd : s.due = .nothing)
    (hp : s.phase = .arguments f name) : s.move t = s.readArguments f name t >>= settle := by
  simp only [move, step, settle_of_settled hd, bind, Except.bind, hp]

theorem move_operator (hd : s.due = .nothing) (hp : s.phase = .operator tree) :
    s.move t = s.readOperator tree t >>= settle := by
  simp only [move, step, settle_of_settled hd, bind, Except.bind, hp]

theorem moves_of_readOperand {s₁ : ParserState} (hp : s.phase = .operand)
    (hd : s.due = .nothing) (hr : s.readOperand t = .ok s₁) (hs : s₁.settle = .ok s') :
    Moves s t s' := by
  unfold readOperand at hr
  split at hr
  · next hk =>
    cases hr
    rw [of_settle_completed hs]
    exact .leaf hp (.number hk)
  · next hk =>
    cases hr
    rw [of_settle_completed hs]
    exact .leaf hp (.named (.inl hk))
  · next hk =>
    cases hr
    rw [of_settle_completed hs]
    exact .leaf hp (.named (.inr hk))
  · next f hk =>
    cases hr
    rw [eq_of_settle hs hd, hd]
    exact .name hp hk
  · next hk =>
    cases hr
    obtain ⟨ha, rfl⟩ := of_settle_opening hs
    exact .group hp hk ha
  · next hk =>
    cases hr
    obtain ⟨ha, rfl⟩ := of_settle_opening hs
    exact .negation hp hk ha
  · cases hr

theorem readOperator_of_tokenKind {op : Operator} (hk : t.kind = op.tokenKind) (ho : op ≠ .pow) :
    s.readOperator tree t = s.readInfix tree op.strength op.frame := by
  cases op with
  | pow => exact absurd rfl ho
  | add | sub | mul | div =>
    rw [readOperator, hk]
    rfl

theorem of_readInfix {strength : Nat} {opened : Expr → Frame} {s₁ : ParserState}
    (hd : s.due = .nothing) (hr : s.readInfix tree strength opened = .ok s₁)
    (hs : s₁.settle = .ok s') :
    ∃ stack left pool, unwind strength s.stack tree s.pool = .ok (stack, left, pool) ∧
      s' = ⟨pool, opened left :: stack, .operand, .nothing⟩ := by
  obtain ⟨⟨stack, left, pool⟩, hu, hr⟩ := bind_eq_ok_iff.1 hr
  cases hr
  rw [eq_of_settle hs hd, hd]
  exact ⟨stack, left, pool, hu, rfl⟩

theorem of_readClosing {s₁ : ParserState} (hr : s.readClosing tree t = .ok s₁)
    (hs : s₁.settle = .ok s') :
    t.kind = .rightParen ∧ ∃ bracket stack inner pool,
      unwind 1 s.stack tree s.pool = .ok (bracket :: stack, inner, pool) ∧
      s' = ⟨pool.grown 1, stack, .operator (bracket.enclosed t inner), .nothing⟩ := by
  obtain ⟨⟨stack, inner, pool⟩, hu, hr⟩ := bind_eq_ok_iff.1 hr
  dsimp only at hr
  split at hr
  · next opening rest =>
    split at hr
    · next hk =>
      cases hr
      exact ⟨hk, _, _, _, _, hu, of_settle_completed hs⟩
    · cases hr
  · next f name opening rest =>
    split at hr
    · next hk =>
      cases hr
      exact ⟨hk, _, _, _, _, hu, of_settle_completed hs⟩
    · cases hr
  · cases hr

theorem moves_of_readOperator {s₁ : ParserState} (hp : s.phase = .operator tree)
    (hd : s.due = .nothing) (hr : s.readOperator tree t = .ok s₁) (hs : s₁.settle = .ok s') :
    Moves s t s' := by
  have joins (op : Operator) (ho : op ≠ .pow) (hk : t.kind = op.tokenKind)
      (hr : s.readInfix tree op.strength op.frame = .ok s₁) : Moves s t s' := by
    obtain ⟨stack, left, pool, hu, rfl⟩ := of_readInfix hd hr hs
    exact .joins hp hk ho hu
  unfold readOperator at hr
  split at hr
  · next hk =>
    cases hr
    rw [of_settle_completed hs]
    exact .factorial hp hk
  · next hk =>
    cases hr
    obtain ⟨ha, rfl⟩ := of_settle_opening hs
    exact .power hp hk ha
  · next hk => exact joins .mul (by decide) hk hr
  · next hk => exact joins .div (by decide) hk hr
  · next hk => exact joins .add (by decide) hk hr
  · next hk => exact joins .sub (by decide) hk hr
  · obtain ⟨hk, bracket, stack, inner, pool, hu, rfl⟩ := of_readClosing hr hs
    exact .closes hp hk hu

theorem moves_of_move (hd : s.due = .nothing) (h : s.move t = .ok s') : Moves s t s' := by
  cases hp : s.phase with
  | operand =>
    rw [move_operand hd hp] at h
    obtain ⟨s₁, hr, hs⟩ := bind_eq_ok_iff.1 h
    exact moves_of_readOperand hp hd hr hs
  | arguments f name =>
    rw [move_arguments hd hp] at h
    obtain ⟨s₁, hr, hs⟩ := bind_eq_ok_iff.1 h
    unfold readArguments at hr
    split at hr
    · next hk =>
      cases hr
      obtain ⟨ha, rfl⟩ := of_settle_opening hs
      exact .call hp hk ha
    · cases hr
  | operator tree =>
    rw [move_operator hd hp] at h
    obtain ⟨s₁, hr, hs⟩ := bind_eq_ok_iff.1 h
    exact moves_of_readOperator hp hd hr hs

theorem after_singleton : s.after [t] = s.move t := by
  cases h : s.move t <;> simp [after, h]

theorem after_cons_eq_ok_iff :
    s.after (t :: ts) = .ok s' ↔ ∃ s₁, s.move t = .ok s₁ ∧ s₁.after ts = .ok s' := by
  rw [after, List.foldlM_cons]
  exact bind_eq_ok_iff

theorem after_append : s.after (ts ++ us) = s.after ts >>= (·.after us) := List.foldlM_append

theorem after_append_eq_ok_iff :
    s.after (ts ++ us) = .ok s' ↔ ∃ s₁, s.after ts = .ok s₁ ∧ s₁.after us = .ok s' := by
  rw [after_append]
  exact bind_eq_ok_iff

theorem after_opens (h : s.Opens t sign frame) (hd : s.due = .nothing) :
    s.after (t :: sign) = (s.opening frame t.span).settle := by
  cases h with
  | group hp hk | negation hp hk =>
    rw [after_singleton, move_operand hd hp, readOperand, hk]
    rfl
  | power hp hk =>
    rw [after_singleton, move_operator hd hp, readOperator, hk]
    rfl
  | @call f _ opening hp hn ho =>
    have hname : s.move t = .ok { s with phase := .arguments f t } := by
      rw [move_operand hd hp, readOperand, hn]
      exact settle_of_settled hd
    rw [after, List.foldlM_cons, hname]
    change after { s with phase := .arguments f t } [opening] = _
    rw [after_singleton, move_arguments (s := { s with phase := .arguments f t }) hd rfl,
      readArguments, if_pos ho]
    rfl

/-- Behind what opens a construct the construct is open, and there was room for it. -/
theorem of_after_opens (h : s.Opens t sign frame) (hd : s.due = .nothing)
    (hafter : s.after (t :: (sign ++ us)) = .ok s') :
    s.Admits frame ∧ (s.entered frame).after us = .ok s' := by
  rw [← List.cons_append] at hafter
  obtain ⟨s₁, hopen, hrest⟩ := after_append_eq_ok_iff.1 hafter
  rw [after_opens h hd] at hopen
  obtain ⟨ha, rfl⟩ := of_settle_opening hopen
  exact ⟨ha, hrest⟩

/-- What every move keeps, a run of moves keeps. -/
theorem kept_of_after {P : ParserState → Prop}
    (hmove : ∀ s t s', P s → s.move t = .ok s' → P s') (hs : P s) (h : s.after ts = .ok s') :
    P s' := by
  induction ts generalizing s with
  | nil =>
    cases h
    exact hs
  | cons t ts ih =>
    obtain ⟨s₁, ht, hrest⟩ := after_cons_eq_ok_iff.1 h
    exact ih (hmove s t s₁ hs ht) hrest

theorem settled_of_after (hd : s.due = .nothing) (h : s.after ts = .ok s') :
    s'.due = .nothing :=
  kept_of_after (P := (·.due = .nothing)) (fun _ _ _ _ => settled_of_move) hd h

theorem run_of_settle (h : s.settle = .ok s') : s.run ending us = s'.run ending us := by
  have hs' := settle_of_settled (settled_of_settle h)
  cases us with
  | nil =>
    cases ending with
    | ok fin => simp only [run, conclude, h, hs']
    | error e => rfl
  | cons u us => simp only [run, step, h, hs']

theorem run_of_settle_eq_error {l : TokenList} (h : s.settle = .error e) (hl : l.all ≠ []) :
    s.run l.ending l.tokens = .error e := by
  obtain ⟨us, ending⟩ := l
  cases us with
  | nil =>
    cases ending with
    | error e' => exact absurd rfl hl
    | ok fin =>
      simp only [run, conclude, h]
      rfl
  | cons u us =>
    simp only [run, step, h]
    rfl

theorem run_of_after_eq_error {l : TokenList} (h : s.after ts = .error e)
    (hl : l.all ≠ []) : s.run l.ending (ts ++ l.tokens) = .error e := by
  induction ts generalizing s with
  | nil => cases h
  | cons t ts ih =>
    rw [after, List.foldlM_cons] at h
    rw [List.cons_append]
    rcases bind_eq_error_iff.1 h with hmove | ⟨s₂, hmove, hrest⟩
    · rcases bind_eq_error_iff.1 hmove with hstep | ⟨s₁, hstep, hs⟩
      · simp only [run, hstep]
        rfl
      · rw [run_cons hstep]
        exact run_of_settle_eq_error (l := l.behind ts) hs (by simp [TokenList.all_behind, hl])
    · obtain ⟨s₁, hstep, hs⟩ := bind_eq_ok_iff.1 hmove
      rw [run_cons hstep, run_of_settle hs]
      exact ih hrest

end ParserState

theorem TokenList.exists_of_prefix_all {l : TokenList} {ts : List Token} {u : Token}
    (h : ts ++ [u] <+: l.all) :
    ∃ rest, l.tokens = ts ++ rest ∧ (TokenList.mk rest l.ending).all ≠ [] := by
  have within (h : ts ++ [u] <+: l.tokens) :
      ∃ rest, l.tokens = ts ++ rest ∧ (TokenList.mk rest l.ending).all ≠ [] := by
    obtain ⟨ws, hws⟩ := h
    refine ⟨u :: ws, by rw [← hws, List.append_assoc]; rfl, ?_⟩
    unfold all
    split <;> simp
  unfold all at h
  split at h
  · next fin hfin =>
    rcases List.prefix_concat_iff.1 h with heq | hp
    · obtain ⟨rfl, -⟩ := List.append_inj' heq rfl
      exact ⟨[], (List.append_nil _).symm, by simp [all, hfin]⟩
    · exact within hp
  · exact within h

/-- The error of a run of moves is the error of every text that starts with its tokens and has one
token more, whatever follows. -/
theorem parse_of_after_eq_error {text : String} {m : Int} {ts : List Token} {u : Token}
    {e : MathError} (h : (ParserState.initial m).after ts = .error e)
    (hp : ts ++ [u] <+: (tokenize text).all) : parse text m = .error e := by
  obtain ⟨rest, htokens, hrest⟩ := TokenList.exists_of_prefix_all hp
  rw [parse, TokenList.parse, htokens]
  exact ParserState.run_of_after_eq_error (l := ⟨rest, (tokenize text).ending⟩) h hrest

end Calculator
