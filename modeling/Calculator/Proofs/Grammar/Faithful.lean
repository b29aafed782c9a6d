import Calculator.Proofs.Grammar.Parsing
import Calculator.Proofs.Grammar.Spans
import Calculator.Proofs.Grammar.Supply
import Calculator.Proofs.Lexing.Places

/-!
# Spans are faithful

The span of a node marks the part of the text that the node was read from, and this part has the
same tree when it is read by itself. The lexer takes as many characters as it can and the grammar
binds by the strength of the operators, but neither lets what stands around the part change its
tokens or their phrase.
-/

namespace Calculator

variable {text : String} {capacity : Int} {p : Parsed} {e n child : Expr} {ts : List Token}

theorem Expr.written_subset_nodes (e : Expr) : e.written ⊆ e.nodes := by
  induction e with
  | binary op left right unary span ihl ihr =>
    refine List.cons_subset_cons _ (List.append_subset.2 ⟨?_, ?_⟩)
    · split
      · exact List.nil_subset _
      · exact List.subset_append_of_subset_left _ ihl
    · exact List.subset_append_of_subset_right _ ihr
  | call _ _ _ ih | factorial _ _ ih | group _ _ ih => exact List.cons_subset_cons _ ih
  | number | named | blank => exact List.Subset.refl _

theorem Expr.size_le_of_mem_nodes (h : n ∈ e.nodes) : n.size ≤ e.size := by
  induction e with
  | binary op left right unary span ihl ihr =>
    rcases List.mem_cons.1 h with rfl | h
    · exact le_rfl
    · rw [size]
      rcases List.mem_append.1 h with h | h
      · have hle := ihl h
        omega
      · have hle := ihr h
        omega
  | call _ _ _ ih | factorial _ _ ih | group _ _ ih =>
    rcases List.mem_cons.1 h with rfl | h
    · exact le_rfl
    · exact (ih h).trans (Nat.le_succ _)
  | number | named | blank => exact (List.mem_singleton.1 h) ▸ le_rfl

theorem inOrder_tokenize (text : String) : InOrder (tokenize text).tokens := by
  have htokens : (Lexer.run text.toList .start).tokens = (tokenize text).tokens ++ [] :=
    (List.append_nil _).symm
  obtain ⟨front, rest, -, hscan⟩ := Lexer.exists_scans htokens
  exact hscan.inOrder

theorem InOrder.mono {us : List Token} (h : InOrder ts) (hsub : us <:+: ts) : InOrder us := by
  obtain ⟨before, later, rfl⟩ := hsub
  exact (inOrder_append.1 (inOrder_append.1 h).1).2.1

/-- The part of a text that holds a phrase is parsed by itself to the tree of the phrase. -/
theorem Expr.IsPhraseIn.parse_cut (h : n.IsPhraseIn (tokenize text).tokens)
    (hroom : (n.size : Int) ≤ capacity) :
    ∃ s, n.span = some s ∧ s.LiesIn text ∧
      ∃ q, parse (s.cut text) capacity = .ok q ∧ q.tree.bare = n.bare := by
  obtain ⟨c, us, hsub, hd⟩ := h
  have hspan := hd.span_eq ((inOrder_tokenize text).mono hsub)
  obtain ⟨before, later, htokens⟩ := hsub
  obtain ⟨t, us, rfl⟩ := List.exists_cons_of_ne_nil hd.ne_nil
  obtain ⟨s, hcover, hlies, vs, fin, hcut, hsame⟩ := tokenize_cut htokens.symm
  obtain ⟨e', hd', hbare⟩ := hd.exchange_lexemes hsame
  have hsize : e'.size = n.size := by rw [← e'.size_bare, hbare, n.size_bare]
  have hend : (tokenize (s.cut text)).ending = .ok fin := by rw [hcut]
  have hderives : Derives .expression (tokenize (s.cut text)).tokens e' := by
    rw [hcut]
    exact hd'.toExpression
  exact ⟨s, hspan.trans hcover, hlies, _, parse_of_derives hend hderives (hsize ▸ hroom), hbare⟩

/-- Every node that an accepted text writes out is read from the part that its span marks. -/
theorem parse_cut_of_mem_written (h : parse text capacity = .ok p) (hn : n ∈ p.tree.written) :
    ∃ s, n.span = some s ∧ s.LiesIn text ∧
      ∃ q, parse (s.cut text) capacity = .ok q ∧ q.tree.bare = n.bare := by
  refine ((derives_of_parse h).2.isPhraseIn_of_mem_written hn).parse_cut ?_
  have hle := Expr.size_le_of_mem_nodes (p.tree.written_subset_nodes hn)
  have hroom := (size_of_parse h).2
  omega

namespace Expr.IsPhraseIn

theorem encloses (h : n.IsPhraseIn ts) (ho : InOrder ts) (hc : child ∈ n.children) :
    ∃ outer inner, n.span = some outer ∧ child.span = some inner ∧ outer.Encloses inner := by
  obtain ⟨c, us, hsub, hd⟩ := h
  have ho := ho.mono hsub
  obtain ⟨vs, hne, hvs, hspan⟩ := hd.exists_child hc
  obtain ⟨inner, outer, hinner, houter, hle⟩ := covering_subset hne hvs.subset ho
  exact ⟨outer, inner, (hd.span_eq ho).trans houter, (hspan (ho.mono hvs)).trans hinner, hle⟩

theorem separate {op : Option Operator} {left right : Expr} {span : Option Span}
    (h : (Expr.binary op left right false span).IsPhraseIn ts) (ho : InOrder ts) :
    ∃ l r, left.span = some l ∧ right.span = some r ∧ l.last < r.first := by
  obtain ⟨c, us, hsub, hd⟩ := h
  obtain ⟨cl, cr, vs, u, ws, rfl, hl, hr⟩ := hd.exists_operands
  obtain ⟨hleft, hright, hbetween⟩ := inOrder_append.1 (ho.mono hsub)
  obtain ⟨a, -, b, hb, ha, hlast⟩ := exists_ends hl.ne_nil
  obtain ⟨c, hc, d, -, hfirst, hd⟩ := exists_ends hr.ne_nil
  rw [hl.span_eq hleft, hr.span_eq hright.tail]
  simp only [covering, ha, hlast, hfirst, hd]
  exact ⟨_, _, rfl, rfl, hbetween b hb c (List.mem_cons_of_mem u hc)⟩

end Expr.IsPhraseIn

/-- A node with children is written out: the zeros of negations have none. -/
theorem isPhraseIn_of_mem_nodes (h : parse text capacity = .ok p) (hn : n ∈ p.tree.nodes)
    (hc : n.children ≠ []) : n.IsPhraseIn (tokenize text).tokens := by
  have hd := (derives_of_parse h).2
  rcases hd.mem_written hn with hwritten | ⟨span, rfl⟩
  · exact hd.isPhraseIn_of_mem_written hwritten
  · exact absurd rfl hc

/-- Spans are faithful. In an accepted text, every node that the text writes out spans a part of the
text that the same pool parses to the tree of the node by itself, and the span knows its line and
column. The span of a node is around those of its children, and the operands of an operator stand in
order. -/
theorem parse_spans_faithful (h : parse text capacity = .ok p) :
    (∀ n ∈ p.tree.written, ∃ s, n.span = some s ∧ s.LiesIn text ∧
      ∃ q, parse (s.cut text) capacity = .ok q ∧ q.tree.bare = n.bare) ∧
    (∀ n ∈ p.tree.nodes, ∀ child ∈ n.children, ∃ outer inner,
      n.span = some outer ∧ child.span = some inner ∧ outer.Encloses inner) ∧
    ∀ op left right span, .binary op left right false span ∈ p.tree.nodes →
      ∃ l r, left.span = some l ∧ right.span = some r ∧ l.last < r.first := by
  refine ⟨fun n hn => parse_cut_of_mem_written h hn, fun n hn child hc => ?_,
    fun op left right span hn => ?_⟩
  · exact (isPhraseIn_of_mem_nodes h hn (List.ne_nil_of_mem hc)).encloses (inOrder_tokenize text) hc
  · exact (isPhraseIn_of_mem_nodes h hn (List.cons_ne_nil _ _)).separate (inOrder_tokenize text)

/-- The usual pool accepts `2*-(x+8)!`. -/
theorem parse_spans_faithful_product :
    ∃ p, parse "2*-(x+8)!" maxNodes = .ok p ∧
      (∀ n ∈ p.tree.written, ∃ s, n.span = some s ∧ s.LiesIn "2*-(x+8)!" ∧
        ∃ q, parse (s.cut "2*-(x+8)!") maxNodes = .ok q ∧ q.tree.bare = n.bare) ∧
      (∀ n ∈ p.tree.nodes, ∀ child ∈ n.children, ∃ outer inner,
        n.span = some outer ∧ child.span = some inner ∧ outer.Encloses inner) ∧
      ∀ op left right span, .binary op left right false span ∈ p.tree.nodes →
        ∃ l r, left.span = some l ∧ right.span = some r ∧ l.last < r.first := by
  have haccepted : (parse "2*-(x+8)!" maxNodes).isOk = true := by decide +kernel
  cases hp : parse "2*-(x+8)!" maxNodes with
  | ok p => exact ⟨p, rfl, parse_spans_faithful hp⟩
  | error e =>
    rw [hp] at haccepted
    cases haccepted

end Calculator
