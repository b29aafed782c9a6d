import Calculator.Proofs.Printing.Reread

/-!
# Printing accepted texts

The trees that the parser builds print exactly if no literal is past the largest float, since an
infinity has no digits. Of the brackets that the printer adds, only those around a negation that is
negated itself are needed for such trees; each pair costs a node when the text is read again.
-/

namespace Calculator

namespace Expr

def AllFinite (e : Expr) : Prop := ∀ v span, number v span ∈ e.nodes → v.isFinite = true

/-- The negations whose operand is a negation. -/
def doubleNegations : Expr → Nat
  | binary _ left right unary _ =>
    left.doubleNegations + right.doubleNegations + (if unary && right.isNegated then 1 else 0)
  | call _ argument _ => argument.doubleNegations
  | factorial operand _ => operand.doubleNegations
  | group inner _ => inner.doubleNegations
  | number .. | named .. | blank _ => 0

section

variable {op : Option Operator} {left right e : Expr} {unary : Bool} {f : FunctionKind}
  {span : Option Span}

@[simp]
theorem allFinite_number {v : Float} : (number v span).AllFinite ↔ v.isFinite = true := by
  simp [AllFinite, nodes]

@[simp]
theorem allFinite_named {name : String} : (named name span).AllFinite := by
  simp [AllFinite, nodes]

@[simp]
theorem allFinite_binary :
    (binary op left right unary span).AllFinite ↔ left.AllFinite ∧ right.AllFinite := by
  simp only [AllFinite, nodes, List.mem_cons, List.mem_append, reduceCtorEq, false_or, or_imp,
    forall_and]

@[simp]
theorem allFinite_call : (call f e span).AllFinite ↔ e.AllFinite := by
  simp [AllFinite, nodes]

@[simp]
theorem allFinite_factorial : (factorial e span).AllFinite ↔ e.AllFinite := by
  simp [AllFinite, nodes]

@[simp]
theorem allFinite_group : (group e span).AllFinite ↔ e.AllFinite := by
  simp [AllFinite, nodes]

@[simp]
theorem allFinite_negation : (negation e span).AllFinite ↔ e.AllFinite := by
  have hzero : (0.0 : Float).isFinite = true := by decide
  simp [negation, hzero]

@[simp]
theorem allFinite_joined {op : Operator} :
    (joined op left right).AllFinite ↔ left.AllFinite ∧ right.AllFinite := by
  simp [joined]

end

end Expr

theorem numeralValue_le_infinity (s : String) : magnitudeBits (numeralValue s) ≤ infinityBits :=
  Decimal.toFloat_le_infinity _

theorem signBit_numeralValue (s : String) : signBit (numeralValue s) = false :=
  Decimal.signBit_toFloat _

theorem not_numeralValue_lt_zero (s : String) : ¬numeralValue s < 0 :=
  not_lt_zero (numeralValue_le_infinity s) (signBit_numeralValue s)

theorem abs_numeralValue (s : String) : (numeralValue s).abs = numeralValue s :=
  abs_of_signBit (numeralValue_le_infinity s) (signBit_numeralValue s)

/-- A numeral past the largest float has no digits to be printed in. -/
theorem literalText_numeralValue {s : String} (h : (numeralValue s).isFinite ≠ true) :
    literalText (numeralValue s).abs = .error .infinityToInteger := by
  have hbits : magnitudeBits (numeralValue s) = infinityBits := by
    have hle := numeralValue_le_infinity s
    rw [Ne, isFinite_iff] at h
    omega
  have hvalue : numeralValue s = floatOfBits false infinityBits := by
    rw [← floatOfBits_bits (numeralValue_le_infinity s), signBit_numeralValue, hbits]
  have hfinite : (floatOfBits false infinityBits).isFinite = false := by decide
  have hnan : (floatOfBits false infinityBits).isNaN = false := by decide
  rw [abs_numeralValue, hvalue, literalText_of_not_isFinite hfinite, hnan]
  rfl

/-- The tree binds as tightly as a phrase of the category; a negation is a factor. -/
def Expr.Fits (e : Expr) (c : Category) : Prop :=
  (e.isNegated = true ∧ c.strength ≤ 3) ∨ (e.isNegated = false ∧ min c.strength 4 ≤ e.strength)

theorem Expr.Fits.weaken {e : Expr} {c c' : Category} (h : e.Fits c)
    (hc : c'.strength ≤ c.strength) : e.Fits c' := by
  rcases h with ⟨hn, hs⟩ | ⟨hn, hs⟩
  · exact .inl ⟨hn, hc.trans hs⟩
  · exact .inr ⟨hn, (min_le_min_right 4 hc).trans hs⟩

theorem Expr.strength_of_isNegated {e : Expr} (h : e.isNegated = true) : e.strength = 2 := by
  cases e with
  | number v =>
    have hv : v < 0 := of_decide_eq_true h
    simp only [strength, if_pos hv]
    rfl
  | binary op left right unary =>
    have hu : unary = true := h
    simp only [strength, hu]
    rfl
  | named | call | factorial | group | blank => cases h

theorem Expr.fits_joined (op : Operator) (left right : Expr) :
    (joined op left right).Fits op.category := by
  refine .inr ⟨rfl, ?_⟩
  rw [op.strength_category]
  exact min_le_left _ _

namespace Derives

variable {c : Category} {ts : List Token} {e : Expr}

theorem fits (h : Derives c ts e) : e.Fits c := by
  induction h using Derives.byRules with
  | number ht =>
    right
    simp [Expr.isNegated, Expr.strength, not_numeralValue_lt_zero, Expr.atomStrength]
  | named | call | group | factorial => exact .inr ⟨rfl, Nat.le_refl 4⟩
  | weaken _ hc ih => exact ih.weaken hc
  | negation => exact .inl ⟨rfl, by decide⟩
  | joined => exact Expr.fits_joined _ _ _

theorem bracketsLeft_eq_false {op : Operator} (h : Derives op.leftCategory ts e) :
    Expr.bracketsLeft op e = false := by
  have hfits := h.fits
  rw [Expr.Fits, op.strength_leftCategory] at hfits
  by_cases hop : op = .pow
  · rw [if_pos hop] at hfits
    rw [Expr.bracketsLeft, if_pos hop, decide_eq_false_iff_not]
    subst hop
    simp only [Operator.strength] at hfits ⊢
    omega
  · have hlt := Operator.strength_lt_three hop
    rw [if_neg hop] at hfits
    simp only [Expr.bracketsLeft, if_neg hop, decide_eq_false_iff_not]
    rcases hfits with ⟨hn, -⟩ | ⟨-, hs⟩
    · have := Expr.strength_of_isNegated hn
      omega
    · omega

theorem bracketsRight_eq_false {op : Operator} (h : Derives op.rightCategory ts e) :
    Expr.bracketsRight op e = false := by
  have hfits := h.fits
  rw [Expr.Fits, op.strength_rightCategory] at hfits
  rcases hfits with ⟨hn, -⟩ | ⟨hn, hs⟩
  · simp [Expr.bracketsRight, hn]
  · have hthree := op.strength_le_three
    simp only [Expr.bracketsRight, hn, Bool.not_false, Bool.true_and]
    split at hs
    · next hop =>
      rw [if_pos hop, decide_eq_false_iff_not]
      omega
    · next hop =>
      have hlt := Operator.strength_lt_three hop
      rw [if_neg hop, decide_eq_false_iff_not]
      omega

theorem factorial_operand (h : Derives .suffixed ts e) : ¬e.strength < Expr.atomStrength := by
  rcases h.fits with ⟨-, hs⟩ | ⟨-, hs⟩
  · simp [Category.strength] at hs
  · exact not_lt.2 hs

/-- The operand of a negation needs brackets if it is a negation. -/
theorem negation_operand (h : Derives .factor ts e) :
    decide (e.strength < Operator.pow.strength) = e.isNegated := by
  rcases h.fits with ⟨hn, -⟩ | ⟨hn, hs⟩
  · rw [hn, Expr.strength_of_isNegated hn]
    rfl
  · rw [hn, decide_eq_false_iff_not]
    exact not_lt.2 hs

/-- The text of a parsed tree has a node more for every negation of a negation. -/
theorem size_reread (h : Derives c ts e) : e.reread.size = e.size + e.doubleNegations := by
  have henclosed (needed : Bool) (e : Expr) :
      (e.enclosed needed).size = e.size + if needed then 1 else 0 := by
    cases needed <;> rfl
  induction h using Derives.byRules with
  | number ht => simp [Expr.reread, not_numeralValue_lt_zero, Expr.size, Expr.doubleNegations]
  | named => rfl
  | call _ _ _ _ ih | group _ _ _ ih =>
    simp only [Expr.reread, Expr.size, Expr.doubleNegations, ih]
    omega
  | weaken _ _ ih => exact ih
  | factorial h _ ih =>
    simp only [Expr.reread, Expr.size, Expr.doubleNegations, henclosed, ih, h.factorial_operand]
    simp
    omega
  | negation _ h ih =>
    simp only [Expr.negation, Expr.reread, if_true, Expr.size, Expr.doubleNegations, henclosed, ih,
      h.negation_operand, Bool.true_and]
    omega
  | joined hl _ hr ihl ihr =>
    simp only [Expr.joined, Expr.reread, Bool.false_eq_true, if_false, Expr.size,
      hl.bracketsLeft_eq_false, hr.bracketsRight_eq_false, henclosed, Expr.doubleNegations, ihl,
      ihr, Bool.false_and]
    omega

def NamesRead (ts : List Token) : Prop := ∀ t ∈ ts, Lexer.IsNameKind t.kind → IsName t.text

theorem printable (h : Derives c ts e) (hn : NamesRead ts) (hf : e.AllFinite) : Printable e := by
  induction h using Derives.byRules with
  | number ht => exact .number (Expr.allFinite_number.1 hf)
  | named ht => exact .named (hn _ (by simp) ht)
  | call _ _ h _ ih =>
    exact .call (ih (fun t ht => hn t (by simp [ht])) (Expr.allFinite_call.1 hf))
  | group _ h _ ih =>
    exact .group (ih (fun t ht => hn t (by simp [ht])) (Expr.allFinite_group.1 hf))
  | weaken _ _ ih => exact ih hn hf
  | factorial h _ ih =>
    exact .factorial (ih (fun t ht => hn t (by simp [ht])) (Expr.allFinite_factorial.1 hf))
  | negation _ h ih =>
    exact .negation (.inl rfl)
      (ih (fun t ht => hn t (by simp [ht])) (Expr.allFinite_negation.1 hf))
  | joined hl _ hr ihl ihr =>
    obtain ⟨hfl, hfr⟩ := Expr.allFinite_joined.1 hf
    exact .binary (ihl (fun t ht => hn t (by simp [ht])) hfl)
      (ihr (fun t ht => hn t (by simp [ht])) hfr)

theorem print_of_not_allFinite (h : Derives c ts e) (hn : NamesRead ts) (hf : ¬e.AllFinite) :
    e.print = .error .infinityToInteger := by
  induction h using Derives.byRules with
  | number ht =>
    rw [Expr.print, literalText_numeralValue (fun hv => hf (Expr.allFinite_number.2 hv))]
    rfl
  | named ht => exact absurd Expr.allFinite_named hf
  | call _ _ h _ ih | group _ h _ ih =>
    simp only [Expr.allFinite_call, Expr.allFinite_group] at hf
    rw [Expr.print, ih (fun t ht => hn t (by simp [ht])) hf]
    rfl
  | weaken _ _ ih => exact ih hn hf
  | factorial h _ ih =>
    rw [Expr.allFinite_factorial] at hf
    rw [Expr.print, ih (fun t ht => hn t (by simp [ht])) hf]
    rfl
  | negation _ h ih =>
    rw [Expr.allFinite_negation] at hf
    rw [Expr.negation, Expr.print, ih (fun t ht => hn t (by simp [ht])) hf]
    rfl
  | @joined op u ts us left right hl _ hr ihl ihr =>
    rw [Expr.allFinite_joined] at hf
    have hnl : NamesRead ts := fun t ht => hn t (by simp [ht])
    have hnr : NamesRead us := fun t ht => hn t (by simp [ht])
    simp only [Expr.joined, Expr.print, Bool.false_eq_true, if_false]
    by_cases hfl : left.AllFinite
    · obtain ⟨text, htext, -⟩ := Expr.spells_print (hl.printable hnl hfl)
      rw [htext, ihr hnr fun hfr => hf ⟨hfl, hfr⟩]
      rfl
    · rw [ihl hnl hfl]
      rfl

end Derives

theorem namesRead_tokenize (text : String) : Derives.NamesRead (tokenize text).tokens :=
  fun _ ht hk => isName_of_mem ht hk

variable {text : String} {capacity : Int} {p : Parsed}

theorem printable_of_parse (h : parse text capacity = .ok p) (hf : p.tree.AllFinite) :
    Printable p.tree :=
  (derives_of_parse h).2.printable (namesRead_tokenize text) hf

theorem print_of_parse (h : parse text capacity = .ok p) (hf : ¬p.tree.AllFinite) :
    p.tree.print = .error .infinityToInteger :=
  (derives_of_parse h).2.print_of_not_allFinite (namesRead_tokenize text) hf

/-- The printed text of an accepted one is accepted by a pool that holds a node more for every
negation of a negation, and by no smaller one. -/
theorem parse_print_of_parse (h : parse text capacity = .ok p) (hf : p.tree.AllFinite) :
    ∃ printed t, p.tree.print = .ok printed ∧ t.bare = p.tree.reread ∧ ∀ capacity' : Int,
      ((p.tree.size + p.tree.doubleNegations : Nat) ≤ capacity' →
        parse printed capacity' = .ok ⟨t, t.size⟩) ∧
      (∀ q, parse printed capacity' = .ok q →
        ((p.tree.size + p.tree.doubleNegations : Nat) : Int) ≤ capacity') := by
  obtain ⟨printed, hprint, hspells⟩ := Expr.spells_print (printable_of_parse h hf)
  obtain ⟨t, hbare, hparse⟩ := hspells.parse
  rw [(derives_of_parse h).2.size_reread] at hparse
  exact ⟨printed, t, hprint, hbare, hparse⟩

end Calculator
