import Calculator.Proofs.Grammar.Completeness
import Calculator.Proofs.Grammar.Soundness

/-!
# The parser and the grammar

A text is parsed to a tree exactly if its tokens derive the tree; the parser reads from left to
right with one token of lookahead, so no list of tokens derives two trees. The places of the nodes
are part of the trees.
-/

namespace Calculator

/-- A phrase has one tree. -/
theorem Derives.unique {c : Category} {ts : List Token} {e e' : Expr} (h : Derives c ts e)
    (h' : Derives c ts e') : e = e' := by
  have hrun : (ParserState.initial (e.size + e'.size : Nat)).run (.ok (.finish .start)) ts =
      .ok ⟨e, e.size⟩ := ParserState.run_of_derives h.toExpression (by omega)
  rw [ParserState.run_of_derives h'.toExpression (by omega)] at hrun
  simp only [Except.ok.injEq, Parsed.mk.injEq] at hrun
  exact hrun.1.symm

theorem derives_of_parse {text : String} {capacity : Int} {p : Parsed}
    (h : parse text capacity = .ok p) :
    (∃ fin, (tokenize text).ending = .ok fin) ∧
      Derives .expression (tokenize text).tokens p.tree := by
  have hstart : (ParserState.initial capacity).Follows [] := Held.nil
  exact ParserState.derives_of_run hstart h

theorem parse_of_derives {text : String} {capacity : Int} {fin : Token} {e : Expr}
    (hf : (tokenize text).ending = .ok fin) (h : Derives .expression (tokenize text).tokens e)
    (hroom : (e.size : Int) ≤ capacity) : parse text capacity = .ok ⟨e, e.size⟩ := by
  rw [parse, TokenList.parse, hf]
  exact ParserState.run_of_derives h hroom

/-- With a pool of two nodes for each token, a parse returns a tree exactly if the text has no
lexical error and its tokens derive the tree from `expression`; and tokens derive no second tree. -/
theorem parse_tree_iff_derives :
    (∀ (text : String) (capacity : Int), 2 * ((tokenize text).tokens.length : Int) ≤ capacity →
      ∀ e, (∃ p, parse text capacity = .ok p ∧ p.tree = e) ↔
        (∃ fin, (tokenize text).ending = .ok fin) ∧
          Derives .expression (tokenize text).tokens e) ∧
    ∀ c ts e e', Derives c ts e → Derives c ts e' → e = e' := by
  refine ⟨fun text capacity hroom e => ⟨?_, ?_⟩, fun c ts e e' h h' => h.unique h'⟩
  · rintro ⟨p, hp, rfl⟩
    exact derives_of_parse hp
  · rintro ⟨⟨fin, hf⟩, h⟩
    have hsize := h.size_le
    exact ⟨_, parse_of_derives hf h (by omega), rfl⟩

/-- The usual pool is large enough for the tokens of `2^-3!`. -/
theorem parse_tree_iff_derives_power :
    2 * ((tokenize "2^-3!").tokens.length : Int) ≤ maxNodes ∧
    ∀ e, (∃ p, parse "2^-3!" maxNodes = .ok p ∧ p.tree = e) ↔
      (∃ fin, (tokenize "2^-3!").ending = .ok fin) ∧
        Derives .expression (tokenize "2^-3!").tokens e :=
  ⟨by decide +kernel, parse_tree_iff_derives.1 "2^-3!" maxNodes (by decide +kernel)⟩

end Calculator
