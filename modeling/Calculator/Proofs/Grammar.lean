import Calculator.Expr
import Calculator.Number.Reading

/-!
# The grammar as a relation

`Derives c ts e` says that the tokens `ts` form a phrase of the category `c` whose tree is `e`. The
chains `term (('+' | '-') term)*` are read from the left, so that the last operator is the root; the
exponent of a power is a factor again, so that powers group to the right. The categories are ordered
by how tightly their phrases hold together.
-/

namespace Calculator

inductive Category where
  | expression
  | term
  | factor
  /-- An operand with any number of factorial signs behind it. -/
  | suffixed
  | primary

/-- How tightly the phrases of a category hold together, in the measure of `Frame.strength`. -/
def Category.strength : Category → Nat
  | expression => 1
  | term => 2
  | factor => 3
  | suffixed => 4
  | primary => 5

/-- The operator between the terms of an expression. -/
def TokenKind.additive? : TokenKind → Option Operator
  | plus => some .add
  | minus => some .sub
  | _ => none

/-- The operator between the factors of a term. -/
def TokenKind.multiplicative? : TokenKind → Option Operator
  | star => some .mul
  | slash => some .div
  | _ => none

/-- Two operands and the operator between them. -/
def Expr.joined (op : Operator) (left right : Expr) : Expr :=
  .binary (some op) left right false (mergeSpans left.span right.span)

inductive Derives : Category → List Token → Expr → Prop where
  | number {t : Token} (ht : t.kind = .number) :
    Derives .primary [t] (.number (numeralValue t.text) (some t.span))
  | named {t : Token} (ht : t.kind = .constant ∨ t.kind = .identifier) :
    Derives .primary [t] (.named t.text (some t.span))
  | call {f : FunctionKind} {name opening closing : Token} {ts : List Token} {e : Expr}
    (hn : name.kind = .function f) (ho : opening.kind = .leftParen)
    (h : Derives .expression ts e) (hc : closing.kind = .rightParen) :
    Derives .primary (name :: opening :: (ts ++ [closing]))
      (.call f e (some (name.span.merge closing.span)))
  | group {opening closing : Token} {ts : List Token} {e : Expr}
    (ho : opening.kind = .leftParen) (h : Derives .expression ts e)
    (hc : closing.kind = .rightParen) :
    Derives .primary (opening :: (ts ++ [closing]))
      (.group e (some (opening.span.merge closing.span)))
  | primary {ts : List Token} {e : Expr} (h : Derives .primary ts e) : Derives .suffixed ts e
  | factorial {bang : Token} {ts : List Token} {e : Expr} (h : Derives .suffixed ts e)
    (hb : bang.kind = .bang) :
    Derives .suffixed (ts ++ [bang]) (.factorial e (mergeSpans e.span (some bang.span)))
  | suffixed {ts : List Token} {e : Expr} (h : Derives .suffixed ts e) : Derives .factor ts e
  | power {caret : Token} {ts us : List Token} {base exponent : Expr}
    (hl : Derives .suffixed ts base) (hc : caret.kind = .caret)
    (hr : Derives .factor us exponent) :
    Derives .factor (ts ++ caret :: us) (.joined .pow base exponent)
  | negation {minus : Token} {ts : List Token} {e : Expr} (hm : minus.kind = .minus)
    (h : Derives .factor ts e) : Derives .factor (minus :: ts) (.negation e (some minus.span))
  | factor {ts : List Token} {e : Expr} (h : Derives .factor ts e) : Derives .term ts e
  | product {op : Operator} {sign : Token} {ts us : List Token} {left right : Expr}
    (hl : Derives .term ts left) (hs : sign.kind.multiplicative? = some op)
    (hr : Derives .factor us right) :
    Derives .term (ts ++ sign :: us) (.joined op left right)
  | term {ts : List Token} {e : Expr} (h : Derives .term ts e) : Derives .expression ts e
  | sum {op : Operator} {sign : Token} {ts us : List Token} {left right : Expr}
    (hl : Derives .expression ts left) (hs : sign.kind.additive? = some op)
    (hr : Derives .term us right) :
    Derives .expression (ts ++ sign :: us) (.joined op left right)

theorem TokenKind.additive?_eq_some_iff {kind : TokenKind} {op : Operator} :
    kind.additive? = some op ↔ kind = .plus ∧ op = .add ∨ kind = .minus ∧ op = .sub := by
  cases kind <;> simp [additive?, eq_comm]

theorem TokenKind.multiplicative?_eq_some_iff {kind : TokenKind} {op : Operator} :
    kind.multiplicative? = some op ↔ kind = .star ∧ op = .mul ∨ kind = .slash ∧ op = .div := by
  cases kind <;> simp [multiplicative?, eq_comm]

namespace Operator

def category : Operator → Category
  | add | sub => .expression
  | mul | div => .term
  | pow => .factor

def leftCategory : Operator → Category
  | add | sub => .expression
  | mul | div => .term
  | pow => .suffixed

def rightCategory : Operator → Category
  | add | sub => .term
  | mul | div | pow => .factor

theorem strength_category (op : Operator) : op.category.strength = op.strength := by
  cases op <;> rfl

theorem strength_leftCategory (op : Operator) :
    op.leftCategory.strength = if op = .pow then op.strength + 1 else op.strength := by
  cases op <;> rfl

theorem strength_rightCategory (op : Operator) :
    op.rightCategory.strength = if op = .pow then op.strength else op.strength + 1 := by
  cases op <;> rfl

theorem strength_le_three (op : Operator) : op.strength ≤ 3 := by
  cases op <;> decide

theorem strength_lt_three {op : Operator} (h : op ≠ .pow) : op.strength < 3 := by
  cases op <;> first | decide | exact absurd rfl h

def tokenKind : Operator → TokenKind
  | add => .plus
  | sub => .minus
  | mul => .star
  | div => .slash
  | pow => .caret

end Operator

namespace Derives

variable {c : Category} {ts : List Token} {e : Expr}

theorem toFactor (h : Derives c ts e) (hc : 3 ≤ c.strength) : Derives .factor ts e := by
  cases c with
  | expression | term => simp [Category.strength] at hc
  | factor => exact h
  | suffixed => exact .suffixed h
  | primary => exact .suffixed (.primary h)

theorem toTerm (h : Derives c ts e) (hc : 2 ≤ c.strength) : Derives .term ts e := by
  cases c with
  | expression => simp [Category.strength] at hc
  | term => exact h
  | factor | suffixed | primary => exact .factor (h.toFactor (by simp [Category.strength]))

theorem toExpression (h : Derives c ts e) : Derives .expression ts e := by
  cases c with
  | expression => exact h
  | term | factor | suffixed | primary => exact .term (h.toTerm (by simp [Category.strength]))

theorem weaken {c' : Category} (h : Derives c ts e)
    (hc : c'.strength ≤ c.strength) : Derives c' ts e := by
  cases c' with
  | expression => exact h.toExpression
  | term => exact h.toTerm hc
  | factor => exact h.toFactor hc
  | suffixed =>
    cases c with
    | expression | term | factor => simp [Category.strength] at hc
    | suffixed => exact h
    | primary => exact .primary h
  | primary =>
    cases c with
    | expression | term | factor | suffixed => simp [Category.strength] at hc
    | primary => exact h

/-- A token pays for at most two nodes, those of a unary minus. -/
theorem size_le (h : Derives c ts e) : e.size ≤ 2 * ts.length := by
  induction h with
  | number | named => simp [Expr.size]
  | call _ _ _ _ ih | group _ _ _ ih =>
    simp only [Expr.size, List.length_cons, List.length_append, List.length_nil]
    omega
  | primary _ ih | suffixed _ ih | factor _ ih | term _ ih => exact ih
  | factorial _ _ ih =>
    simp only [Expr.size, List.length_append, List.length_cons, List.length_nil]
    omega
  | negation _ _ ih =>
    simp only [Expr.negation, Expr.size, List.length_cons]
    omega
  | power _ _ _ ihl ihr | product _ _ _ ihl ihr | sum _ _ _ ihl ihr =>
    simp only [Expr.joined, Expr.size, List.length_append, List.length_cons]
    omega

theorem joined {op : Operator} {u : Token} {us : List Token} {left right : Expr}
    (hl : Derives op.leftCategory ts left) (hu : u.kind = op.tokenKind)
    (hr : Derives op.rightCategory us right) :
    Derives op.category (ts ++ u :: us) (.joined op left right) := by
  cases op with
  | add | sub => exact .sum hl (by rw [hu]; rfl) hr
  | mul | div => exact .product hl (by rw [hu]; rfl) hr
  | pow => exact .power hl hu hr

/-- Induction over the rules, with one case for the five operators and one for the categories that
contain another. -/
@[elab_as_elim]
theorem byRules {motive : ∀ c ts e, Derives c ts e → Prop}
    (number : ∀ {t : Token} (ht : t.kind = .number), motive _ _ _ (.number ht))
    (named : ∀ {t : Token} (ht : t.kind = .constant ∨ t.kind = .identifier),
      motive _ _ _ (.named ht))
    (call : ∀ {f : FunctionKind} {name opening closing : Token} {ts e}
      (hn : name.kind = .function f) (ho : opening.kind = .leftParen) (h : Derives .expression ts e)
      (hc : closing.kind = .rightParen), motive _ _ _ h → motive _ _ _ (.call hn ho h hc))
    (group : ∀ {opening closing : Token} {ts e} (ho : opening.kind = .leftParen)
      (h : Derives .expression ts e) (hc : closing.kind = .rightParen),
      motive _ _ _ h → motive _ _ _ (.group ho h hc))
    (weaken : ∀ {c c' : Category} {ts e} (h : Derives c ts e) (hc : c'.strength ≤ c.strength),
      motive _ _ _ h → motive _ _ _ (h.weaken hc))
    (factorial : ∀ {bang : Token} {ts e} (h : Derives .suffixed ts e) (hb : bang.kind = .bang),
      motive _ _ _ h → motive _ _ _ (.factorial h hb))
    (negation : ∀ {minus : Token} {ts e} (hm : minus.kind = .minus) (h : Derives .factor ts e),
      motive _ _ _ h → motive _ _ _ (.negation hm h))
    (joined : ∀ {op : Operator} {u : Token} {ts us left right}
      (hl : Derives op.leftCategory ts left) (hu : u.kind = op.tokenKind)
      (hr : Derives op.rightCategory us right),
      motive _ _ _ hl → motive _ _ _ hr → motive _ _ _ (hl.joined hu hr))
    (h : Derives c ts e) : motive c ts e h := by
  induction h with
  | number ht => exact number ht
  | named ht => exact named ht
  | call hn ho h hc ih => exact call hn ho h hc ih
  | group ho h hc ih => exact group ho h hc ih
  | primary h ih => exact weaken h (by decide) ih
  | suffixed h ih => exact weaken h (by decide) ih
  | factor h ih => exact weaken h (by decide) ih
  | term h ih => exact weaken h (by decide) ih
  | factorial h hb ih => exact factorial h hb ih
  | negation hm h ih => exact negation hm h ih
  | power hl hc hr ihl ihr => exact @joined .pow _ _ _ _ _ hl hc hr ihl ihr
  | product hl hs hr ihl ihr =>
    rcases TokenKind.multiplicative?_eq_some_iff.1 hs with ⟨hk, rfl⟩ | ⟨hk, rfl⟩
    · exact @joined .mul _ _ _ _ _ hl hk hr ihl ihr
    · exact @joined .div _ _ _ _ _ hl hk hr ihl ihr
  | sum hl hs hr ihl ihr =>
    rcases TokenKind.additive?_eq_some_iff.1 hs with ⟨hk, rfl⟩ | ⟨hk, rfl⟩
    · exact @joined .add _ _ _ _ _ hl hk hr ihl ihr
    · exact @joined .sub _ _ _ _ _ hl hk hr ihl ihr

end Derives

end Calculator
