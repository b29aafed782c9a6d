import Calculator.Proofs.Grammar.Returns
import Calculator.Proofs.Grammar.Supply

/-!
# The pool bounds the nesting

Whenever the parser goes into a construct, the nodes taken and the nodes reserved for all open
constructs fit into the pool. So the nesting, and with it the whole stack, is bounded by the pool,
whatever the text is. A construct for which there is no room is refused at its first token as soon
as one token behind the opening is known, and nothing that follows can change this.
-/

namespace Calculator

/-- The constructs for which nodes are reserved: the parser goes into a bracket, the operand of a
unary minus, an exponent or an argument. -/
def Frame.nests : Frame → Bool
  | .negation _ | .power _ | .group _ | .call .. => true
  | .sum .. | .product .. => false

namespace ParserState

/-- The number of open constructs that lie within each other. -/
def nesting (stack : List Frame) : Nat := stack.countP Frame.nests

/-- In the parse of a text the tokens `ts` have been read, the token behind them is known, and all
checks have been made. -/
def Reaches (text : String) (capacity : Int) (ts : List Token) (s : ParserState) : Prop :=
  (∃ u, ts ++ [u] <+: (tokenize text).all) ∧ (initial capacity).after ts = .ok s

/-- What bounds the stack wherever the parser stands. -/
structure NestingLaws (text : String) (capacity : Int) (ts : List Token) (s : ParserState) :
    Prop where
  /-- The parse goes on from here. -/
  parse_eq : parse text capacity =
    s.run (tokenize text).ending ((tokenize text).tokens.drop ts.length)
  /-- The nodes taken are those of the operands that have been built. -/
  count_eq : s.pool.count = built s.stack + s.phase.built
  /-- In front of the operand of a construct that has just been opened, the nodes taken and those
  reserved for everything that is open fit into the pool. -/
  room : s.phase = .operand → (∃ frame ∈ s.stack.head?, frame.nests = true) →
    (s.pool.count : Int) + reserved s.stack ≤ capacity
  /-- No more constructs lie within each other than the pool holds nodes. -/
  nesting_le : nesting s.stack ≤ capacity.toNat
  /-- Nor does the stack grow beyond this: between two such constructs, and on top of them, at most
  one sum and one product are open. -/
  length_le : s.stack.length ≤ 3 * capacity.toNat + 2
  /-- When a phrase that begins here is complete, the same constructs are open, and the same number
  of nodes is reserved. -/
  returns : ∀ c us e stack, s.Begins c → Derives c us e → s.Completes us e stack →
    stack = s.stack ∧ reserved stack = reserved s.stack
  /-- Until an operand is complete, everything that is open here stays open. -/
  stays : ∀ us s', s.after us = .ok s' →
    s.stack <:+ s'.stack ∨ ∃ vs e, vs <+: us ∧ s.Completes vs e s.stack
  /-- A construct for which there is room is opened. -/
  enters : ∀ t sign frame u, s.Opens t sign frame →
    ts ++ t :: (sign ++ [u]) <+: (tokenize text).all →
    (s.pool.count : Int) + reserved (frame :: s.stack) ≤ capacity →
    Reaches text capacity (ts ++ t :: sign) (s.entered frame)
  /-- A construct for which there is none ends the parse at its first token, in this text and in
  every other that begins with the same tokens, up to the one behind the opening. -/
  refuses : ∀ t sign frame u, s.Opens t sign frame →
    capacity < s.pool.count + reserved (frame :: s.stack) →
    ∀ text', ts ++ t :: (sign ++ [u]) <+: (tokenize text').all →
      parse text' capacity = .error (.of (.nodeLimit capacity) (some t.span))

variable {s s' : ParserState} {t u : Token} {ts us sign : List Token} {stack rest : List Frame}
  {frame : Frame} {capacity : Int} {text : String}

theorem nesting_cons (frame : Frame) (stack : List Frame) :
    nesting (frame :: stack) = nesting stack + if frame.nests then 1 else 0 := List.countP_cons

theorem nesting_le_reserved (stack : List Frame) : nesting stack ≤ reserved stack := by
  induction stack with
  | nil => exact Nat.le_refl 0
  | cons frame stack ih =>
    rw [nesting_cons, reserved, Nat.add_comm]
    apply Nat.add_le_add _ ih
    cases frame <;> simp [Frame.nests, Frame.reserved]

theorem reserved_le_of_suffix (h : rest <:+ stack) : reserved rest ≤ reserved stack := by
  induction stack with
  | nil => rw [List.suffix_nil.1 h]
  | cons frame stack ih =>
    rcases List.suffix_cons_iff.1 h with rfl | h
    · exact Nat.le_refl _
    · exact Nat.le_trans (ih h) (Nat.le_add_left _ _)

/-- A sum stands directly on brackets or on nothing, and a product may stand on a sum besides. -/
theorem length_le_of_held (h : Held stack ts) :
    (HeldBelow 1 stack → stack.length ≤ 3 * nesting stack) ∧
    (HeldBelow 2 stack → stack.length ≤ 3 * nesting stack + 1) ∧
    stack.length ≤ 3 * nesting stack + 2 := by
  induction h with
  | nil => simp
  | sum _ hbelow _ _ ih =>
    have hlength := ih.1 hbelow
    simp only [heldBelow_cons, Frame.strength, nesting_cons, Frame.nests, List.length_cons]
    omega
  | product _ hbelow _ _ ih =>
    have hlength := ih.2.1 hbelow
    simp only [heldBelow_cons, Frame.strength, nesting_cons, Frame.nests, List.length_cons]
    omega
  | power _ _ _ ih | negation _ _ ih | group _ _ ih | call _ _ _ ih =>
    have hlength := ih.2.2
    simp only [nesting_cons, Frame.nests, List.length_cons, if_true]
    omega

/-- Reservations never exceed the pool, and the check for a construct still holds in front of its
operand. -/
structure Bounded (capacity : Int) (s : ParserState) : Prop where
  settled : s.due = .nothing
  capacity_eq : s.pool.capacity = capacity
  reserved_le : reserved s.stack ≤ capacity.toNat
  room : s.phase = .operand → (∃ frame ∈ s.stack.head?, frame.nests = true) →
    (s.pool.count : Int) + reserved s.stack ≤ capacity

theorem bounded_initial (capacity : Int) : (initial capacity).Bounded capacity :=
  ⟨rfl, rfl, Nat.zero_le _, by simp [initial]⟩

theorem Bounded.entered (h : s.Bounded capacity) (ha : s.Admits frame) :
    (s.entered frame).Bounded capacity := by
  have hroom : (s.pool.count : Int) + reserved (frame :: s.stack) ≤ capacity :=
    h.capacity_eq ▸ ha
  refine ⟨rfl, h.capacity_eq, ?_, fun _ _ => hroom⟩
  change reserved (frame :: s.stack) ≤ _
  omega

theorem reserved_le_of_unwind {strength : Nat} {e e' : Expr} {pool pool' : NodePool}
    (hs : 1 ≤ strength) (hu : unwind strength stack e pool = .ok (rest, e', pool')) :
    reserved rest ≤ reserved stack ∧ pool'.capacity = pool.capacity := by
  obtain ⟨inner, hstack, -⟩ := (closes_of_unwind hs hu).exists_inner
  exact ⟨reserved_le_of_suffix ⟨inner, hstack.symm⟩, ((yields_unwind hs).of_ok hu).1⟩

theorem Bounded.moves (h : s.Bounded capacity) (hm : Moves s t s') : s'.Bounded capacity := by
  cases hm with
  | leaf | name | factorial =>
    refine ⟨rfl, h.capacity_eq, h.reserved_le, fun hphase => ?_⟩
    cases hphase
  | group _ _ ha | negation _ _ ha | call _ _ ha | power _ _ ha => exact h.entered ha
  | @joins op tree left rest pool _ _ ho hu =>
    obtain ⟨hle, hcap⟩ := reserved_le_of_unwind op.one_le_strength hu
    have hfree : (op.frame left).reserved = 0 ∧ (op.frame left).nests = false := by
      cases op with
      | pow => exact absurd rfl ho
      | add | sub | mul | div => exact ⟨rfl, rfl⟩
    refine ⟨rfl, hcap.trans h.capacity_eq, ?_, ?_⟩
    · rw [reserved, hfree.1, Nat.zero_add]
      exact Nat.le_trans hle h.reserved_le
    · rintro - ⟨frame, hframe, hnests⟩
      obtain rfl : op.frame left = frame := Option.some.inj hframe
      rw [hfree.2] at hnests
      cases hnests
  | @closes tree inner bracket rest pool _ _ hu =>
    obtain ⟨hle, hcap⟩ := reserved_le_of_unwind (Nat.le_refl 1) hu
    refine ⟨rfl, hcap.trans h.capacity_eq, ?_, fun hphase => ?_⟩
    · exact Nat.le_trans (Nat.le_add_left _ _) (Nat.le_trans hle h.reserved_le)
    · cases hphase

theorem Bounded.after (h : s.Bounded capacity) (hafter : s.after ts = .ok s') :
    s'.Bounded capacity :=
  kept_of_after (fun _ _ _ hb hmove => hb.moves (moves_of_move hb.settled hmove)) h hafter

theorem exists_held_of_after (h : (initial capacity).after ts = .ok s) :
    ∃ us, Held s.stack us := by
  have hstart : (initial capacity).Follows [] := Held.nil
  have hfollows : ∃ us, s.Follows us := by
    refine kept_of_after (P := fun s => ∃ us, s.Follows us) ?_ ⟨[], hstart⟩ h
    rintro s t s' ⟨us, hf⟩ hmove
    obtain ⟨s₁, hstep, hs⟩ := bind_eq_ok_iff.1 hmove
    exact ⟨us ++ [t], follows_settle (follows_step hf hstep) hs⟩
  obtain ⟨us, hf⟩ := hfollows
  unfold Follows at hf
  split at hf
  · exact ⟨us, hf⟩
  · obtain ⟨vs, -, -, hh⟩ := hf
    exact ⟨vs, hh⟩
  · obtain ⟨vs, -, -, hh, -⟩ := hf
    exact ⟨vs, hh⟩

theorem count_of_after (h : (initial capacity).after ts = .ok s) :
    s.pool.count = built s.stack + s.phase.built := by
  have htaken : s.due = .nothing ∧ Taken s.pool capacity (built s.stack + s.phase.built) := by
    refine kept_of_after (P := fun s => s.due = .nothing ∧
      Taken s.pool capacity (built s.stack + s.phase.built)) ?_ ⟨rfl, rfl, rfl, .inl rfl⟩ h
    rintro s t s' ⟨hd, htaken⟩ hmove
    obtain ⟨s₁, hstep, hs⟩ := bind_eq_ok_iff.1 hmove
    have hacc : s.Accounted capacity := ⟨_, htaken, by simp [hd, Due.nodes]⟩
    exact (accounted_settle (accounted_step hacc hstep) hs).symm
  exact htaken.2.2.1

theorem run_of_after (h : s.after ts = .ok s') (ending : Except MathError Token) :
    s.run ending (ts ++ us) = s'.run ending us := by
  induction ts generalizing s with
  | nil =>
    cases h
    rfl
  | cons t ts ih =>
    obtain ⟨s₂, hmove, hrest⟩ := after_cons_eq_ok_iff.1 h
    obtain ⟨s₁, hstep, hs⟩ := bind_eq_ok_iff.1 hmove
    rw [List.cons_append, run_cons hstep, run_of_settle hs, ih hrest]

theorem Reaches.parse_eq (h : Reaches text capacity ts s) : parse text capacity =
    s.run (tokenize text).ending ((tokenize text).tokens.drop ts.length) := by
  obtain ⟨⟨u, hu⟩, hafter⟩ := h
  obtain ⟨rest, htokens, -⟩ := TokenList.exists_of_prefix_all hu
  rw [parse, TokenList.parse, htokens, run_of_after hafter, List.drop_left]

theorem after_of_opens (hafter : (initial capacity).after ts = .ok s)
    (ho : s.Opens t sign frame) : (initial capacity).after (ts ++ t :: sign) =
      if capacity < s.pool.count + reserved (frame :: s.stack)
        then .error (.of (.nodeLimit capacity) (some t.span)) else .ok (s.entered frame) := by
  have hb := (bounded_initial capacity).after hafter
  rw [after_append, hafter]
  change s.after (t :: sign) = _
  rw [after_opens ho hb.settled, settle_opening, NodePool.exhausted, hb.capacity_eq]

theorem Reaches.enters (h : Reaches text capacity ts s) (ho : s.Opens t sign frame)
    (hu : ts ++ t :: (sign ++ [u]) <+: (tokenize text).all)
    (hroom : (s.pool.count : Int) + reserved (frame :: s.stack) ≤ capacity) :
    Reaches text capacity (ts ++ t :: sign) (s.entered frame) := by
  refine ⟨⟨u, by simpa using hu⟩, ?_⟩
  rw [after_of_opens h.2 ho, if_neg (Int.not_lt.2 hroom)]

theorem Reaches.refuses (h : Reaches text capacity ts s) (ho : s.Opens t sign frame)
    (hroom : capacity < s.pool.count + reserved (frame :: s.stack)) {text' : String}
    (hu : ts ++ t :: (sign ++ [u]) <+: (tokenize text').all) :
    parse text' capacity = .error (.of (.nodeLimit capacity) (some t.span)) := by
  have hafter : (initial capacity).after (ts ++ t :: sign) =
      .error (.of (.nodeLimit capacity) (some t.span)) := by
    rw [after_of_opens h.2 ho, if_pos hroom]
  exact parse_of_after_eq_error hafter (by simpa using hu)

end ParserState

open ParserState

/-- Wherever the parser stands in a text, accepted or not, the pool bounds what is open, a phrase
leaves what is open as it was, and a construct is opened exactly if there is room for it. -/
theorem parse_nesting_laws {text : String} {capacity : Int} {ts : List Token} {s : ParserState}
    (h : Reaches text capacity ts s) : NestingLaws text capacity ts s := by
  have hb := (bounded_initial capacity).after h.2
  have hnesting : nesting s.stack ≤ capacity.toNat :=
    Nat.le_trans (nesting_le_reserved s.stack) hb.reserved_le
  obtain ⟨us, hheld⟩ := exists_held_of_after h.2
  have hlength := (length_le_of_held hheld).2.2
  refine ⟨h.parse_eq, count_of_after h.2, hb.room, hnesting, by omega, ?_, ?_, ?_, ?_⟩
  · intro c us e stack hbegins hd hc
    obtain rfl := stack_of_completes hb.settled hbegins hd hc
    exact ⟨rfl, rfl⟩
  · intro us s' hafter
    exact above_or_completes hb.settled hafter
  · intro t sign frame u ho hu hroom
    exact h.enters ho hu hroom
  · intro t sign frame u ho hroom text' hu
    exact h.refuses ho hroom hu

/-- In `-2+((1$` a pool of four nodes has room for the first bracket, behind the three nodes of
`-2`, and none for the second one. The dollar sign, with which no lexeme starts, is not reached. -/
theorem parse_nesting_laws_brackets :
    ∃ s, Reaches "-2+((1$" 4 (tokenize "-2+(").tokens s ∧
      NestingLaws "-2+((1$" 4 (tokenize "-2+(").tokens s ∧
      s.pool.count = 3 ∧ reserved s.stack = 1 ∧
      parse "-2+((1$" 4 = .error (.of (.nodeLimit 4) (some ⟨4, 4, 1, 5⟩)) := by
  have hahead : (tokenize "-2+(").tokens ++ [⟨.leftParen, "(", ⟨4, 4, 1, 5⟩⟩] <+:
      (tokenize "-2+((1$").all := by decide +kernel
  have hbehind : (tokenize "-2+(").tokens ++ ⟨.leftParen, "(", ⟨4, 4, 1, 5⟩⟩ ::
      ([] ++ [⟨.number, "1", ⟨5, 5, 1, 6⟩⟩]) <+: (tokenize "-2+((1$").all := by decide +kernel
  have hstate : ((initial 4).after (tokenize "-2+(").tokens).toOption.map
      (fun s => (s.pool.count, reserved s.stack, s.phase matches .operand)) =
        some (3, 1, true) := by decide +kernel
  cases hs : (initial 4).after (tokenize "-2+(").tokens with
  | error e =>
    rw [hs] at hstate
    cases hstate
  | ok s =>
    rw [hs] at hstate
    obtain ⟨hcount, hreserved, hphase⟩ : s.pool.count = 3 ∧ reserved s.stack = 1 ∧
        (s.phase matches .operand) = true := by simpa [Except.toOption] using hstate
    have hlaws := parse_nesting_laws ⟨⟨_, hahead⟩, hs⟩
    have hoperand : s.phase = .operand := by
      split at hphase
      · next hp => exact hp
      · cases hphase
    refine ⟨s, ⟨⟨_, hahead⟩, hs⟩, hlaws, hcount, hreserved, ?_⟩
    refine hlaws.refuses _ _ _ _ (.group hoperand rfl) ?_ _ hbehind
    rw [hcount, reserved, hreserved]
    decide

end Calculator
