import Calculator.Proofs.Grammar.Demand
import Calculator.Proofs.Grammar.Errors

/-!
# The limit of the pool is exact

A pool of any size gives the same outcome as a larger one, or runs out of nodes. So the outcome of a
parse whose pool never fills is also that of every smaller pool that holds the nodes of the tree,
and all pools that do not hold them run out.
-/

namespace Calculator

def NodePool.widened (p : NodePool) (k : Nat) : NodePool := { p with capacity := p.capacity + k }

def ParserState.widened (s : ParserState) (k : Nat) : ParserState :=
  { s with pool := s.pool.widened k }

/-- The second outcome is the first one up to the change `f`, unless the first ran out of nodes. -/
def Extends {α β : Type} (f : α → β) (r : Except MathError α) (r' : Except MathError β) : Prop :=
  (∃ e, r = .error e ∧ e.IsNodeLimit) ∨ r' = r.map f

namespace Extends

variable {α α' β β' : Type} {f : α → α'} {g : β → β'}

theorem refl (f : α → α') (r : Except MathError α) : Extends f r (r.map f) := .inr rfl

theorem of_isNodeLimit {e : MathError} {r' : Except MathError α'} (h : e.IsNodeLimit) :
    Extends f (.error e) r' := .inl ⟨e, rfl, h⟩

theorem bind {r : Except MathError α} {r' : Except MathError α'} {next : α → Except MathError β}
    {next' : α' → Except MathError β'} (h : Extends f r r')
    (hn : ∀ a, Extends g (next a) (next' (f a))) : Extends g (r >>= next) (r' >>= next') := by
  rcases h with ⟨e, rfl, he⟩ | rfl
  · exact of_isNodeLimit he
  · cases r with
    | ok a => exact hn a
    | error e => exact .inr rfl

theorem eq_or {r r' : Except MathError α} (h : Extends id r r') :
    (∃ e, r = .error e ∧ e.IsNodeLimit) ∨ r' = r := by
  refine h.imp_right fun heq => heq.trans ?_
  cases r <;> rfl

end Extends

namespace ParserState

variable {k : Nat}

theorem extends_take (pool : NodePool) (span : Option Span) :
    Extends (NodePool.widened · k) (pool.take span) ((pool.widened k).take span) := by
  unfold NodePool.take
  split
  · exact .of_isNodeLimit (pool.isNodeLimit_exhausted span)
  · next h =>
    have hroom : ¬(pool.widened k).capacity ≤ (pool.widened k).count := by
      simp only [NodePool.widened]
      omega
    rw [if_neg hroom]
    exact .refl _ _

theorem extends_reserve (pool : NodePool) (n : Nat) (span : Option Span) :
    Extends id (pool.reserve n span) ((pool.widened k).reserve n span) := by
  unfold NodePool.reserve
  split
  · exact .of_isNodeLimit (pool.isNodeLimit_exhausted span)
  · next h =>
    have hroom : ¬(pool.widened k).capacity < (pool.widened k).count + n := by
      simp only [NodePool.widened]
      omega
    rw [if_neg hroom]
    exact .refl _ _

theorem extends_settle (s : ParserState) :
    Extends (ParserState.widened · k) s.settle (s.widened k).settle := by
  obtain ⟨pool, stack, phase, due⟩ := s
  cases due with
  | nothing => exact .refl _ _
  | node span => exact (extends_take pool span).bind fun _ => .refl _ _
  | room span => exact (extends_reserve pool _ _).bind fun _ => .refl _ _

theorem extends_build (pool : NodePool) (e : Expr) (frame : Frame) :
    Extends (Prod.map id (NodePool.widened · k)) (build pool e frame)
      (build (pool.widened k) e frame) := by
  cases frame with
  | sum | product | power => exact (extends_take pool _).bind fun _ => .refl _ _
  | negation =>
    exact (extends_take pool _).bind fun pool => (extends_take pool _).bind fun _ => .refl _ _
  | group | call => exact .refl _ _

theorem extends_unwind (strength : Nat) (stack : List Frame) (e : Expr) (pool : NodePool) :
    Extends (Prod.map id (Prod.map id (NodePool.widened · k))) (unwind strength stack e pool)
      (unwind strength stack e (pool.widened k)) := by
  induction stack generalizing e pool with
  | nil => exact .refl _ _
  | cons frame stack ih =>
    rw [unwind, unwind]
    split
    · exact (extends_build pool e frame).bind fun built => ih built.1 built.2
    · exact .refl _ _

theorem extends_readInfix (s : ParserState) (tree : Expr) (strength : Nat) (opened : Expr → Frame) :
    Extends (ParserState.widened · k) (s.readInfix tree strength opened)
      ((s.widened k).readInfix tree strength opened) :=
  (extends_unwind strength s.stack tree s.pool).bind fun _ => .refl _ _

theorem extends_readClosing (s : ParserState) (tree : Expr) (t : Token) :
    Extends (ParserState.widened · k) (s.readClosing tree t)
      ((s.widened k).readClosing tree t) := by
  refine (extends_unwind 1 s.stack tree s.pool).bind fun r => ?_
  obtain ⟨stack, inner, pool⟩ := r
  cases stack with
  | nil => exact .refl _ _
  | cons frame rest =>
    cases frame with
    | sum | product | negation | power => exact .refl _ _
    | group | call =>
      dsimp only [Prod.map, id]
      split <;> exact .refl _ _

theorem extends_readOperand (s : ParserState) (t : Token) :
    Extends (ParserState.widened · k) (s.readOperand t) ((s.widened k).readOperand t) := by
  unfold readOperand
  split <;> exact .refl _ _

theorem extends_readArguments (s : ParserState) (f : FunctionKind) (name t : Token) :
    Extends (ParserState.widened · k) (s.readArguments f name t)
      ((s.widened k).readArguments f name t) := by
  unfold readArguments
  split <;> exact .refl _ _

theorem extends_readOperator (s : ParserState) (tree : Expr) (t : Token) :
    Extends (ParserState.widened · k) (s.readOperator tree t)
      ((s.widened k).readOperator tree t) := by
  unfold readOperator
  split
  · exact .refl _ _
  · exact .refl _ _
  · exact extends_readInfix s _ _ _
  · exact extends_readInfix s _ _ _
  · exact extends_readInfix s _ _ _
  · exact extends_readInfix s _ _ _
  · exact extends_readClosing s _ t

theorem extends_step (s : ParserState) (t : Token) :
    Extends (ParserState.widened · k) (s.step t) ((s.widened k).step t) := by
  refine (extends_settle s).bind fun s => ?_
  obtain ⟨pool, stack, phase, due⟩ := s
  cases phase with
  | operand => exact extends_readOperand ⟨pool, stack, .operand, due⟩ t
  | arguments f name => exact extends_readArguments ⟨pool, stack, .arguments f name, due⟩ f name t
  | operator tree => exact extends_readOperator ⟨pool, stack, .operator tree, due⟩ tree t

theorem extends_conclude (s : ParserState) (t : Token) :
    Extends id (s.conclude t) ((s.widened k).conclude t) := by
  refine (extends_settle s).bind fun s => ?_
  obtain ⟨pool, stack, phase, due⟩ := s
  cases phase with
  | operand | arguments => exact .refl _ _
  | operator tree =>
    refine (extends_unwind 1 stack tree pool).bind fun r => ?_
    obtain ⟨stack, inner, pool⟩ := r
    cases stack with
    | nil => exact .refl _ _
    | cons frame rest => cases frame <;> exact .refl _ _

/-- A run has the same outcome with a larger pool, unless it ran out of nodes. -/
theorem extends_run (s : ParserState) (ending : Except MathError Token) (us : List Token) :
    Extends id (s.run ending us) ((s.widened k).run ending us) := by
  induction us generalizing s with
  | nil =>
    cases ending with
    | ok fin => exact extends_conclude s fin
    | error e => exact .refl _ _
  | cons t us ih => exact (extends_step s t).bind fun s' => ih s'

end ParserState

variable {text : String} {m m' : Int} {e : MathError} {p : Parsed}

/-- A pool with two nodes for each token never fills. -/
theorem not_isNodeLimit_of_parse (hroom : 2 * ((tokenize text).tokens.length : Int) ≤ m)
    (h : parse text m = .error e) : ¬e.IsNodeLimit := by
  refine ParserState.not_isNodeLimit_of_run (s := .initial m) ?_ ?_ h
  · have hdemand : (ParserState.initial m).demand = 0 := rfl
    rw [hdemand]
    change _ ≤ m
    omega
  · intro e he hlimit
    have hstage : e.stage = .lexing := Lexer.failsIn_run _ _ e he
    rw [hlimit.1] at hstage
    cases hstage

/-- A larger pool changes the outcome only if the smaller one did not suffice. -/
theorem parse_eq_of_le (hle : m ≤ m') :
    (∃ e, parse text m = .error e ∧ e.IsNodeLimit) ∨ parse text m' = parse text m := by
  obtain ⟨k, rfl⟩ := Int.le.dest hle
  exact (ParserState.extends_run (.initial m) (tokenize text).ending (tokenize text).tokens).eq_or

/-- The pool never fills. -/
def Unhindered (text : String) (capacity : Int) : Prop :=
  ∀ e, parse text capacity = .error e → ¬e.IsNodeLimit

theorem Unhindered.eq_of_le (h : Unhindered text m) (hle : m ≤ m') :
    parse text m' = parse text m := by
  rcases parse_eq_of_le hle with ⟨e, he, hlimit⟩ | heq
  · exact absurd hlimit (h e he)
  · exact heq

theorem Unhindered.eq_or_isNodeLimit (h : Unhindered text m') (m : Int) :
    parse text m = parse text m' ∨ ∃ e, parse text m = .error e ∧ e.IsNodeLimit := by
  rcases Int.le_total m m' with hle | hle
  · exact (parse_eq_of_le hle).symm.imp_left Eq.symm
  · exact .inl (h.eq_of_le hle)

/-- An accepted text is parsed to the same tree by every pool that holds its nodes, and by no
other. -/
theorem parse_of_size_le (h : parse text m' = .ok p) (hroom : (p.tree.size : Int) ≤ m) :
    parse text m = .ok ⟨p.tree, p.tree.size⟩ := by
  obtain ⟨⟨fin, hf⟩, hd⟩ := derives_of_parse h
  exact parse_of_derives hf hd hroom

/-- The limit is exact. Pools with two nodes for each token never fill. If a pool that never fills
gives a tree, then every pool that holds the nodes of the tree gives it, with the nodes counted, and
every smaller pool runs out of nodes. If it gives an error, then every pool gives this error or runs
out of nodes, and all pools that are larger than one that gives the error do so too. -/
theorem parse_limit_exact (text : String) :
    (∀ M : Int, 2 * ((tokenize text).tokens.length : Int) ≤ M → Unhindered text M) ∧
    ∀ M, Unhindered text M →
      (∀ p, parse text M = .ok p → ∀ m : Int,
        ((p.tree.nodes.length : Int) ≤ m → parse text m = .ok ⟨p.tree, p.tree.nodes.length⟩) ∧
        (m < p.tree.nodes.length → ∃ e, parse text m = .error e ∧ e.IsNodeLimit)) ∧
      ∀ e, parse text M = .error e →
        (∀ m, parse text m = .error e ∨ ∃ e', parse text m = .error e' ∧ e'.IsNodeLimit) ∧
        ∀ m m' : Int, m ≤ m' → parse text m = .error e → parse text m' = .error e := by
  refine ⟨fun M hM e he => not_isNodeLimit_of_parse hM he, fun M hM => ⟨?_, ?_⟩⟩
  · intro p hp m
    rw [p.tree.length_nodes]
    refine ⟨parse_of_size_le hp, fun hlt => ?_⟩
    rcases hM.eq_or_isNodeLimit m with heq | hlimit
    · have hsize := (size_of_parse (heq.trans hp)).2
      omega
    · exact hlimit
  · intro e he
    refine ⟨fun m => ?_, fun m m' hle hm => ?_⟩
    · rw [← he]
      exact hM.eq_or_isNodeLimit m
    · have hfree : Unhindered text m := by
        intro e' he'
        rw [hm] at he'
        cases he'
        exact hM e he
      rw [hfree.eq_of_le hle, hm]

/-- The six nodes of `2^-(3)` are the two numbers, the zero of the negation, the two operations and
the brackets. -/
theorem parse_limit_exact_power :
    Unhindered "2^-(3)" maxNodes ∧
    (∃ p, parse "2^-(3)" 6 = .ok p ∧ p.count = 6) ∧
    (∃ e, parse "2^-(3)" 5 = .error e ∧ e.IsNodeLimit) ∧
    ∃ e, parse "2^-(3" maxNodes = .error e ∧
      (parse "2^-(3" 5 = .error e ∨ ∃ e', parse "2^-(3" 5 = .error e' ∧ e'.IsNodeLimit) := by
  have hfree : Unhindered "2^-(3)" maxNodes :=
    (parse_limit_exact "2^-(3)").1 maxNodes (by decide +kernel)
  have hopen : Unhindered "2^-(3" maxNodes :=
    (parse_limit_exact "2^-(3").1 maxNodes (by decide +kernel)
  have hsize : (parse "2^-(3)" maxNodes).toOption.map (·.tree.nodes.length) = some 6 := by
    decide +kernel
  have hrefused : (parse "2^-(3" maxNodes).toOption.isNone = true := by decide +kernel
  cases hp : parse "2^-(3)" maxNodes with
  | error e =>
    rw [hp] at hsize
    cases hsize
  | ok p =>
    rw [hp] at hsize
    have hsix : p.tree.nodes.length = 6 := Option.some.inj hsize
    have hexact := ((parse_limit_exact "2^-(3)").2 maxNodes hfree).1 p hp
    rw [hsix] at hexact
    refine ⟨hfree, ⟨_, (hexact 6).1 (by decide), rfl⟩, (hexact 5).2 (by decide), ?_⟩
    cases he : parse "2^-(3" maxNodes with
    | ok p =>
      rw [he] at hrefused
      cases hrefused
    | error e => exact ⟨e, rfl, (((parse_limit_exact "2^-(3").2 maxNodes hopen).2 e he).1 5⟩

end Calculator
