import Calculator.Proofs.Grammar.Supply
import Calculator.Proofs.Printing.Spelling

/-!
# What printed text is read as

The printer writes brackets where a tree needs them and a sign in front of a negative number, so the
tree that is read back has a node for every pair of brackets and a negation for every sign.
`Expr.reread` is that tree. It prints as the same text, and agrees with the printed tree in its
core, which has neither brackets nor negative numbers.
-/

namespace Calculator

/-- The trees that the parser can build, with any finite numbers: a unary operation is a subtraction
from zero, and names are read as names. -/
inductive Printable : Expr → Prop where
  | number {v : Float} {span : Option Span} (h : v.isFinite = true) : Printable (.number v span)
  | named {name : String} {span : Option Span} (h : IsName name) : Printable (.named name span)
  | negation {zero : Float} {e : Expr} {sign span : Option Span} (hz : zero = 0.0 ∨ zero = -0.0)
    (h : Printable e) : Printable (.binary (some .sub) (.number zero sign) e true span)
  | binary {op : Operator} {left right : Expr} {span : Option Span} (hl : Printable left)
    (hr : Printable right) : Printable (.binary (some op) left right false span)
  | call {f : FunctionKind} {e : Expr} {span : Option Span} (h : Printable e) :
    Printable (.call f e span)
  | factorial {e : Expr} {span : Option Span} (h : Printable e) : Printable (.factorial e span)
  | group {e : Expr} {span : Option Span} (h : Printable e) : Printable (.group e span)

namespace Expr

def enclosed (needed : Bool) (e : Expr) : Expr := if needed then group e none else e

/-- The tree that the printed text is read as. -/
def reread : Expr → Expr
  | number v _ => if v < 0 then negation (number v.abs none) none else number v.abs none
  | named name _ => named name none
  | binary op left right unary _ =>
    if unary then negation (enclosed (right.strength < Operator.pow.strength) right.reread) none
    else match op with
      | none => blank none
      | some op => binary (some op) (enclosed (bracketsLeft op left) left.reread)
          (enclosed (bracketsRight op right) right.reread) false none
  | call f argument _ => call f argument.reread none
  | factorial operand _ =>
    factorial (enclosed (operand.strength < atomStrength) operand.reread) none
  | group inner _ => group inner.reread none
  | blank _ => blank none

/-- The tree without brackets and places, and without negative numbers: `Number(-v)` is the negation
of `v`, and zero has no sign. -/
def core : Expr → Expr
  | number v _ => if v < 0 then negation (number v.abs none) none else number v.abs none
  | named name _ => named name none
  | binary op left right unary _ => binary op left.core right.core unary none
  | call f argument _ => call f argument.core none
  | factorial operand _ => factorial operand.core none
  | group inner _ => inner.core
  | blank _ => blank none

def category : Expr → Category
  | number v _ => if v < 0 then .factor else .primary
  | binary op _ _ unary _ => if unary then .factor else op.elim .expression Operator.category
  | factorial .. => .suffixed
  | named .. | call .. | group .. | blank _ => .primary

theorem strength_le_category (e : Expr) : e.strength ≤ e.category.strength := by
  cases e with
  | number v =>
    simp only [strength, category]
    split <;> decide
  | binary op left right unary =>
    cases unary with
    | true => exact (by decide : (2 : Nat) ≤ 3)
    | false =>
      cases op with
      | none => exact Nat.zero_le _
      | some op => cases op <;> exact Nat.le_refl _
  | named | call | group | blank => exact (by decide : (4 : Nat) ≤ 5)
  | factorial => exact Nat.le_refl _

theorem three_le_category {e : Expr} (h : e.isNegated = true) : 3 ≤ e.category.strength := by
  cases e with
  | number v =>
    have hv : v < 0 := by simpa [isNegated] using h
    simp [category, hv, Category.strength]
  | binary op left right unary =>
    have hu : unary = true := h
    simp [category, hu, Category.strength]
  | named | call | factorial | group | blank => cases h

theorem one_le_category (e : Expr) : 1 ≤ e.category.strength := by
  cases e.category <;> decide

theorem leftCategory_le {op : Operator} {e : Expr} (h : bracketsLeft op e = false) :
    op.leftCategory.strength ≤ e.category.strength := by
  have hle := e.strength_le_category
  rw [op.strength_leftCategory]
  unfold bracketsLeft at h
  split at h
  · next hop =>
    rw [if_pos hop]
    have := of_decide_eq_false h
    omega
  · next hop =>
    rw [if_neg hop]
    have := of_decide_eq_false h
    omega

theorem rightCategory_le {op : Operator} {e : Expr} (h : bracketsRight op e = false) :
    op.rightCategory.strength ≤ e.category.strength := by
  have hle := e.strength_le_category
  rw [op.strength_rightCategory]
  cases hn : e.isNegated with
  | true =>
    have hthree := three_le_category hn
    split
    · exact op.strength_le_three.trans hthree
    · next hop => exact (Operator.strength_lt_three hop).trans_le hthree
  | false =>
    rw [bracketsRight, hn, Bool.not_false, Bool.true_and] at h
    split at h
    · next hop =>
      rw [if_pos hop]
      have := of_decide_eq_false h
      omega
    · next hop =>
      rw [if_neg hop]
      have := of_decide_eq_false h
      omega

theorem toList_bracketed (text : String) :
    (bracketed true text).toList = '(' :: (text.toList ++ [')']) := by
  simp [bracketed, toString]

end Expr

theorem Spells.enclosed {c c' : Category} {needed : Bool} {text : String} {e : Expr}
    (h : Spells c text.toList e) (hc : needed = false → c'.strength ≤ c.strength) :
    Spells c' (Expr.bracketed needed text).toList (e.enclosed needed) := by
  cases needed with
  | true =>
    rw [Expr.toList_bracketed]
    refine (Spells.group (h.weaken ?_)).weaken ?_
    · cases c <;> decide
    · cases c' <;> decide
  | false => exact h.weaken (hc rfl)

namespace Expr

variable {e : Expr}

theorem spells_literal {v : Float} (hv : v.isFinite = true) :
    ∃ digits, literalText v.abs = .ok digits ∧
      Spells .primary digits.toList (number v.abs none) := by
  have hle := magnitudeBits_le_of_isFinite hv
  obtain ⟨cs, hcs, htext, hvalue⟩ := literalText_eq (isFinite_abs hv) (signBit_abs hle)
  refine ⟨_, htext, ?_⟩
  have hspells := Spells.number hcs
  rwa [hvalue, ← String.toList_ofList (l := cs)] at hspells

theorem print_negation {text : String} {zero : Float} {sign span : Option Span}
    (h : e.print = .ok text) :
    (binary (some .sub) (number zero sign) e true span).print =
      .ok ("-" ++ bracketed (e.strength < Operator.pow.strength) text) := by
  simp only [print, h]
  rfl

theorem print_binary {op : Operator} {left right : Expr} {leftText rightText : String}
    {span : Option Span} (hl : left.print = .ok leftText) (hr : right.print = .ok rightText) :
    (binary (some op) left right false span).print =
      .ok (bracketed (bracketsLeft op left) leftText ++ s!" {op.sign} " ++
        bracketed (bracketsRight op right) rightText) := by
  simp only [print, hl, hr]
  rfl

theorem print_factorial {text : String} {span : Option Span} (h : e.print = .ok text) :
    (factorial e span).print = .ok (bracketed (e.strength < atomStrength) text ++ "!") := by
  simp only [print, h]
  rfl

/-- A printable tree has a text, which is read as the tree with the brackets of the text. -/
theorem spells_print (h : Printable e) :
    ∃ text, e.print = .ok text ∧ Spells e.category text.toList e.reread := by
  induction h with
  | @number v span hv =>
    obtain ⟨digits, htext, hspells⟩ := spells_literal hv
    by_cases hneg : v < 0
    · refine ⟨"-" ++ digits, by simp [print, htext, hneg], ?_⟩
      have hoperand : Spells .factor _ _ := hspells.weaken (by decide)
      have hminus := hoperand.negation
      simpa [category, reread, hneg] using hminus
    · refine ⟨digits, by simp [print, htext, hneg], ?_⟩
      simpa [category, reread, hneg] using hspells
  | named hname => exact ⟨_, rfl, .named hname⟩
  | @negation zero e sign span hz he ih =>
    obtain ⟨text, htext, hspells⟩ := ih
    refine ⟨_, print_negation htext, ?_⟩
    have hoperand : Spells .factor (bracketed (e.strength < Operator.pow.strength) text).toList
        (e.reread.enclosed (e.strength < Operator.pow.strength)) :=
      hspells.enclosed fun hn => (not_lt.1 (of_decide_eq_false hn)).trans e.strength_le_category
    simpa [category, reread] using hoperand.negation
  | @binary op left right span hl hr ihl ihr =>
    obtain ⟨leftText, hlt, hspells⟩ := ihl
    obtain ⟨rightText, hrt, hspells'⟩ := ihr
    refine ⟨_, print_binary hlt hrt, ?_⟩
    have hleft : Spells op.leftCategory _ _ := hspells.enclosed leftCategory_le
    have hright : Spells op.rightCategory _ _ := hspells'.enclosed rightCategory_le
    have hjoined := hleft.binary hright
    simpa [category, reread, toString] using hjoined
  | @call f e span he ih =>
    obtain ⟨text, htext, hspells⟩ := ih
    refine ⟨_, by simp only [print, htext]; rfl, ?_⟩
    have hcall := Spells.call f (hspells.weaken e.one_le_category)
    simpa [category, reread, toString] using hcall
  | @factorial e span he ih =>
    obtain ⟨text, htext, hspells⟩ := ih
    refine ⟨_, print_factorial htext, ?_⟩
    have hoperand : Spells .suffixed (bracketed (e.strength < atomStrength) text).toList
        (e.reread.enclosed (e.strength < atomStrength)) :=
      hspells.enclosed fun hn => (not_lt.1 (of_decide_eq_false hn)).trans e.strength_le_category
    simpa [category, reread] using hoperand.factorial
  | @group e span he ih =>
    obtain ⟨text, htext, hspells⟩ := ih
    refine ⟨_, by simp only [print, htext]; rfl, ?_⟩
    have hgroup := Spells.group (hspells.weaken e.one_le_category)
    simpa [category, reread, toString] using hgroup

theorem not_abs_lt_zero {v : Float} (hv : v.isFinite = true) : ¬v.abs < 0 :=
  not_lt_zero (magnitudeBits_le_of_isFinite (isFinite_abs hv))
    (signBit_abs (magnitudeBits_le_of_isFinite hv))

theorem abs_abs {v : Float} (hv : v.isFinite = true) : v.abs.abs = v.abs :=
  abs_of_signBit (magnitudeBits_le_of_isFinite (isFinite_abs hv))
    (signBit_abs (magnitudeBits_le_of_isFinite hv))

theorem strength_reread (h : Printable e) :
    e.reread.strength = e.strength ∧ e.reread.isNegated = e.isNegated := by
  cases h with
  | @number v span hv =>
    by_cases hneg : v < 0
    · simp [reread, hneg, negation, strength, isNegated]
    · simp [reread, hneg, strength, isNegated, not_abs_lt_zero hv]
  | named | negation | binary | call | factorial | group => exact ⟨rfl, rfl⟩

theorem print_enclosed {text : String} (needed : Bool) (h : e.print = .ok text) :
    (e.enclosed needed).print = .ok (bracketed needed text) := by
  cases needed with
  | true =>
    simp only [enclosed, if_true, print, h]
    rfl
  | false => exact h

/-- What is in brackets where they are needed needs no further ones. -/
theorem not_lt_strength_reread {n : Nat} (h : Printable e) (hn : n ≤ atomStrength) :
    ¬(e.reread.enclosed (e.strength < n)).strength < n := by
  by_cases hlt : e.strength < n
  · rw [decide_eq_true hlt]
    exact not_lt.2 hn
  · rw [decide_eq_false hlt]
    change ¬e.reread.strength < n
    rwa [(strength_reread h).1]

theorem bracketsLeft_reread (op : Operator) (h : Printable e) :
    bracketsLeft op (e.reread.enclosed (bracketsLeft op e)) = false := by
  cases hb : bracketsLeft op e with
  | true => cases op <;> rfl
  | false =>
    change bracketsLeft op e.reread = false
    rw [← hb, bracketsLeft, bracketsLeft, (strength_reread h).1]

theorem bracketsRight_reread (op : Operator) (h : Printable e) :
    bracketsRight op (e.reread.enclosed (bracketsRight op e)) = false := by
  cases hb : bracketsRight op e with
  | true => cases op <;> rfl
  | false =>
    change bracketsRight op e.reread = false
    rw [← hb, bracketsRight, bracketsRight, (strength_reread h).1, (strength_reread h).2]

/-- The tree that is read prints as the text that was read. -/
theorem print_reread (h : Printable e) : e.reread.print = e.print := by
  induction h with
  | @number v span hv =>
    obtain ⟨digits, htext, -⟩ := spells_literal hv
    have hdigits : (number v.abs none).print = .ok digits := by
      simp [print, abs_abs hv, not_abs_lt_zero hv, htext]
    by_cases hneg : v < 0
    · have hstrength : (number v.abs none).strength = atomStrength := by
        simp [strength, not_abs_lt_zero hv]
      simp only [reread, if_pos hneg, negation]
      rw [print_negation hdigits, hstrength]
      simp [print, htext, hneg, bracketed, atomStrength, Operator.strength]
    · simp only [reread, if_neg hneg]
      rw [hdigits]
      simp [print, htext, hneg]
  | named => rfl
  | @negation zero e sign span hz he ih =>
    obtain ⟨text, htext, -⟩ := spells_print he
    have hinner := print_enclosed (e.strength < Operator.pow.strength) (ih.trans htext)
    have hstrength := not_lt_strength_reread (n := Operator.pow.strength) he (by decide)
    simp only [reread, if_true, negation]
    rw [print_negation hinner, print_negation htext]
    simp [hstrength, bracketed]
  | @binary op left right span hl hr ihl ihr =>
    obtain ⟨leftText, hlt, -⟩ := spells_print hl
    obtain ⟨rightText, hrt, -⟩ := spells_print hr
    have hleft := print_enclosed (bracketsLeft op left) (ihl.trans hlt)
    have hright := print_enclosed (bracketsRight op right) (ihr.trans hrt)
    rw [print_binary hlt hrt]
    simp only [reread, Bool.false_eq_true, if_false]
    rw [print_binary hleft hright, bracketsLeft_reread op hl, bracketsRight_reread op hr]
    rfl
  | call he ih => simp only [reread, print, ih]
  | @factorial e span he ih =>
    obtain ⟨text, htext, -⟩ := spells_print he
    have hinner := print_enclosed (e.strength < atomStrength) (ih.trans htext)
    have hstrength := not_lt_strength_reread (n := atomStrength) he (Nat.le_refl _)
    simp only [reread]
    rw [print_factorial hinner, print_factorial htext]
    simp [hstrength, bracketed]
  | group he ih => simp only [reread, print, ih]

theorem core_enclosed (needed : Bool) (e : Expr) : (e.enclosed needed).core = e.core := by
  cases needed <;> rfl

theorem core_zero (span : Option Span) : (number 0.0 span).core = number 0.0 none := by
  have hlt : ¬(0.0 : Float) < 0 := by decide
  have habs : (0.0 : Float).abs = 0.0 := by decide
  simp only [core, if_neg hlt, habs]

theorem core_negative_zero (span : Option Span) : (number (-0.0) span).core = number 0.0 none := by
  have hlt : ¬(-0.0 : Float) < 0 := by decide
  have habs : (-0.0 : Float).abs = 0.0 := by decide
  simp only [core, if_neg hlt, habs]

theorem span_core (e : Expr) : e.core.span = none := by
  induction e with
  | number v =>
    simp only [core]
    split <;> rfl
  | group inner span ih => exact ih
  | named | binary | call | factorial | blank => rfl

theorem core_negation (e : Expr) (span : Option Span) :
    (negation e span).core = negation e.core none := by
  rw [negation, core, core_zero, negation, e.span_core]
  rfl

/-- What is read has the core of what was printed. -/
theorem core_reread (h : Printable e) : e.reread.core = e.core := by
  induction h with
  | @number v span hv =>
    have habs : (number v.abs none).core = number v.abs none := by
      simp [core, abs_abs hv, not_abs_lt_zero hv]
    by_cases hneg : v < 0
    · simp only [reread, core, if_pos hneg]
      rw [core_negation, habs]
    · simp only [reread, if_neg hneg, habs]
      simp [core, hneg]
  | named => rfl
  | @negation zero e sign span hz he ih =>
    have hzero : (number zero sign).core = number 0.0 none := by
      rcases hz with rfl | rfl
      · exact core_zero sign
      · exact core_negative_zero sign
    simp only [reread, if_true]
    rw [core_negation, core_enclosed, ih, core, hzero, negation, e.span_core]
    rfl
  | binary hl hr ihl ihr => simp [reread, core, core_enclosed, ihl, ihr]
  | call he ih => simp only [reread, core, ih]
  | factorial he ih => simp only [reread, core, core_enclosed, ih]
  | group he ih => simp only [reread, core, ih]

theorem core_bare (e : Expr) : e.bare.core = e.core := by
  induction e <;> simp_all [bare, core]

end Expr

/-- A spelled text is parsed to its tree exactly if the pool holds the nodes of the tree. -/
theorem Spells.parse {c : Category} {text : String} {e : Expr} (h : Spells c text.toList e) :
    ∃ t : Expr, t.bare = e ∧ ∀ capacity : Int,
      ((e.size : Int) ≤ capacity → Calculator.parse text capacity = .ok ⟨t, t.size⟩) ∧
      (∀ p, Calculator.parse text capacity = .ok p → (e.size : Int) ≤ capacity) := by
  obtain ⟨ts, t, after, hd, rfl, hrun⟩ := h [] .start detached_nil
  rw [List.append_nil, Lexer.run_nil] at hrun
  have htokens : (tokenize text).tokens = ts := by
    rw [tokenize, hrun]
    simp [TokenList.behind]
  have hending : (tokenize text).ending = .ok (.finish after) := by
    rw [tokenize, hrun]
    rfl
  refine ⟨t, rfl, fun capacity => ⟨fun hroom => ?_, fun p hp => ?_⟩⟩
  · rw [t.size_bare] at hroom
    exact parse_of_derives hending (htokens ▸ hd.toExpression) hroom
  · have hsize := (size_of_parse hp).2
    have htree := (derives_of_parse hp).2
    rw [htokens] at htree
    rwa [t.size_bare, hd.toExpression.unique htree]

/-- Every printable tree prints to a text that a large enough pool parses, to a tree that is the
same but for brackets, places and the signs of negative numbers, and that prints to the same
text. -/
theorem parse_print {t : Expr} (h : Printable t) :
    ∃ text, t.print = .ok text ∧ ∃ n : Nat, ∀ capacity : Int, n ≤ capacity →
      ∃ p, parse text capacity = .ok p ∧ p.tree.core = t.core ∧ p.tree.print = .ok text := by
  obtain ⟨text, htext, hspells⟩ := Expr.spells_print h
  obtain ⟨tree, hbare, hparse⟩ := hspells.parse
  refine ⟨text, htext, t.reread.size, fun capacity hroom => ⟨_, (hparse capacity).1 hroom, ?_, ?_⟩⟩
  · rw [← Expr.core_bare, hbare, Expr.core_reread h]
  · rw [← Expr.print_bare, hbare, Expr.print_reread h, htext]

/-- The tree of `(-2) ^ x!`, with the base as one number. -/
def powerOfNegative : Expr :=
  .binary (some .pow) (.number (-2.0) none) (.factorial (.named "x" none) none) false none

theorem parse_print_powerOfNegative :
    Printable powerOfNegative ∧ ∃ text, powerOfNegative.print = .ok text ∧
      ∃ n : Nat, ∀ capacity : Int, n ≤ capacity → ∃ p, parse text capacity = .ok p ∧
        p.tree.core = powerOfNegative.core ∧ p.tree.print = .ok text := by
  have hname : IsName "x" := isName_iff.2
    ⟨⟨'x', [], rfl, by decide, by decide, by decide,
      List.forall_mem_singleton.2 (by decide)⟩, .inr (by decide)⟩
  have hprintable : Printable powerOfNegative :=
    .binary (.number (by decide)) (.factorial (.named hname))
  exact ⟨hprintable, parse_print hprintable⟩

end Calculator
