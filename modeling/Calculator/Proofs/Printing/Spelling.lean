import Calculator.Expr.Printer
import Calculator.Proofs.Grammar
import Calculator.Proofs.Lexing

/-!
# Spelling out phrases

`Spells c cs e` says that the characters `cs` are read as a phrase of the category `c` with the tree
`e`, in front of anything that does not run on from them. Each rule of the grammar has a spelling:
the operators stand between blanks, all other signs next to their operand.
-/

namespace Calculator

/-- The tree without the places of its nodes. -/
def Expr.bare : Expr → Expr
  | number v _ => .number v none
  | named name _ => .named name none
  | binary op left right unary _ => .binary op left.bare right.bare unary none
  | call f argument _ => .call f argument.bare none
  | factorial operand _ => .factorial operand.bare none
  | group inner _ => .group inner.bare none
  | blank _ => .blank none

@[simp]
theorem Expr.size_bare (e : Expr) : e.bare.size = e.size := by
  induction e <;> simp_all [bare, size]

@[simp]
theorem Expr.strength_bare (e : Expr) : e.bare.strength = e.strength := by cases e <;> rfl

@[simp]
theorem Expr.isNegated_bare (e : Expr) : e.bare.isNegated = e.isNegated := by cases e <;> rfl

theorem Expr.print_bare (e : Expr) : e.bare.print = e.print := by
  induction e with
  | binary op left right unary span ihl ihr =>
    simp only [bare, print, bracketsLeft, bracketsRight, strength_bare, isNegated_bare, ihl, ihr]
  | factorial operand span ih => simp only [bare, print, strength_bare, ih]
  | call f argument span ih => simp only [bare, print, ih]
  | group inner span ih => simp only [bare, print, ih]
  | number | named | blank => rfl

theorem Expr.span_bare (e : Expr) : e.bare.span = none := by cases e <;> rfl

theorem Operator.exists_sign (op : Operator) :
    ∃ c, op.sign.toList = [c] ∧ signKind? c = some op.tokenKind := by
  cases op <;> exact ⟨_, rfl, rfl⟩

/-- The characters are read as a phrase with the given tree, wherever they stand. -/
def Spells (c : Category) (cs : List Char) (e : Expr) : Prop :=
  ∀ (rest : List Char) (cursor : Cursor), Detached rest → ∃ ts t after,
    Derives c ts t ∧ t.bare = e ∧
      Lexer.run (cs ++ rest) cursor = (Lexer.run rest after).behind ts

namespace Spells

open Lexer

variable {c c' : Category} {cs ds : List Char} {e left right : Expr}

theorem weaken (h : Spells c cs e) (hc : c'.strength ≤ c.strength) : Spells c' cs e := by
  intro rest cursor hr
  obtain ⟨ts, t, after, hd, hbare, hrun⟩ := h rest cursor hr
  exact ⟨ts, t, after, hd.weaken hc, hbare, hrun⟩

theorem number (h : IsNumeral cs) :
    Spells .primary cs (.number (numeralValue (String.ofList cs)) none) := by
  intro rest cursor hr
  obtain ⟨t, ht, htext, hrun⟩ := run_numeral h hr cursor
  exact ⟨_, _, _, .number ht, by rw [Expr.bare, htext], hrun⟩

theorem named {name : String} (h : IsName name) :
    Spells .primary name.toList (.named name none) := by
  intro rest cursor hr
  obtain ⟨hword, hk⟩ := isName_iff.1 h
  obtain ⟨t, hkind, htext, hrun⟩ := run_word hword hr cursor
  rw [String.ofList_toList] at hkind htext
  exact ⟨_, _, _, .named (hkind ▸ hk), by rw [Expr.bare, htext], hrun⟩

theorem group (h : Spells .expression cs e) :
    Spells .primary ('(' :: (cs ++ [')'])) (.group e none) := by
  intro rest cursor hr
  obtain ⟨ts, t, after, hd, rfl, hrun⟩ :=
    h (')' :: rest) (cursor.past '(') (detached_mark (by decide) _)
  obtain ⟨opening, ho, hopening⟩ := run_sign leftParen (cs ++ ')' :: rest) cursor
  obtain ⟨closing, hc, hclosing⟩ := run_sign rightParen rest after
  refine ⟨_, _, after.past ')', .group ho hd hc, by rw [Expr.bare], ?_⟩
  rw [hrun, hclosing, TokenList.behind_behind, TokenList.behind_behind] at hopening
  simpa using hopening

theorem call (f : FunctionKind) (h : Spells .expression cs e) :
    Spells .primary (f.name.toList ++ '(' :: (cs ++ [')'])) (.call f e none) := by
  intro rest cursor hr
  obtain ⟨ts, t, after, hd, rfl, hrun⟩ :=
    h (')' :: rest) ((cursor.pastAll f.name.toList).past '(') (detached_mark (by decide) _)
  obtain ⟨opening, ho, hopening⟩ :=
    run_sign leftParen (cs ++ ')' :: rest) (cursor.pastAll f.name.toList)
  obtain ⟨closing, hc, hclosing⟩ := run_sign rightParen rest after
  obtain ⟨name, hkind, -, hname⟩ :=
    run_word (isWord_name f) (detached_mark (c := '(') (by decide) (cs ++ ')' :: rest)) cursor
  rw [String.ofList_toList, wordKind_name] at hkind
  rw [hopening, hrun, hclosing, TokenList.behind_behind, TokenList.behind_behind,
    TokenList.behind_behind] at hname
  refine ⟨_, _, after.past ')', .call hkind ho hd hc, by rw [Expr.bare], ?_⟩
  simpa using hname

theorem factorial (h : Spells .suffixed cs e) :
    Spells .suffixed (cs ++ ['!']) (.factorial e none) := by
  intro rest cursor hr
  obtain ⟨ts, t, after, hd, rfl, hrun⟩ := h ('!' :: rest) cursor (detached_mark (by decide) _)
  obtain ⟨sign, hs, hsign⟩ := run_sign bang rest after
  refine ⟨_, _, after.past '!', .factorial hd hs, by rw [Expr.bare], ?_⟩
  rw [hsign, TokenList.behind_behind] at hrun
  simpa using hrun

theorem negation (h : Spells .factor cs e) : Spells .factor ('-' :: cs) (.negation e none) := by
  intro rest cursor hr
  obtain ⟨ts, t, after, hd, rfl, hrun⟩ := h rest (cursor.past '-') hr
  obtain ⟨sign, hs, hsign⟩ := run_sign minus (cs ++ rest) cursor
  refine ⟨_, _, after, .negation hs hd, ?_, ?_⟩
  · simp [Expr.negation, Expr.bare, mergeSpans, Expr.span_bare]
  · rw [hrun, TokenList.behind_behind] at hsign
    simpa using hsign

theorem binary {op : Operator} (hl : Spells op.leftCategory cs left)
    (hr : Spells op.rightCategory ds right) :
    Spells op.category (cs ++ ' ' :: (op.sign.toList ++ ' ' :: ds))
      (.binary (some op) left right false none) := by
  intro rest cursor hrest
  obtain ⟨sign, hsign, hs⟩ := op.exists_sign
  obtain ⟨ts, t, after, hd, rfl, hrun⟩ :=
    hl (' ' :: sign :: ' ' :: (ds ++ rest)) cursor (detached_mark (by decide) _)
  obtain ⟨us, v, last, hd', rfl, hrun'⟩ :=
    hr rest (((after.past ' ').past sign).past ' ') hrest
  obtain ⟨u, hu, hmiddle⟩ := run_sign hs (' ' :: (ds ++ rest)) (after.past ' ')
  rw [run_separator rfl, hmiddle, run_separator rfl, hrun', TokenList.behind_behind,
    TokenList.behind_behind] at hrun
  refine ⟨_, _, last, hd.joined hu hd', by rw [Expr.joined, Expr.bare], ?_⟩
  rw [hsign]
  simpa using hrun

end Spells

end Calculator
