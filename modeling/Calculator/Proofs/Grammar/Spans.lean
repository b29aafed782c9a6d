import Calculator.Proofs.Grammar.Kinds

/-!
# The places of the nodes

The tree of a phrase spans the tokens of the phrase, from the first to the last, and every node that
the text writes out is the tree of a phrase inside.
-/

namespace Calculator

theorem inOrder_append {ts us : List Token} :
    InOrder (ts ++ us) ↔
      InOrder ts ∧ InOrder us ∧ ∀ t ∈ ts, ∀ u ∈ us, t.span.last < u.span.first := by
  simp only [InOrder, List.pairwise_append, List.mem_append, or_imp, forall_and]
  tauto

theorem InOrder.tail {t : Token} {ts : List Token} (h : InOrder (t :: ts)) : InOrder ts :=
  ⟨h.1.of_cons, fun u hu => h.2 u (List.mem_cons_of_mem t hu)⟩

theorem InOrder.first_le {ts : List Token} {first t : Token} (h : InOrder ts)
    (hf : ts.head? = some first) (ht : t ∈ ts) : first.span.first ≤ t.span.first := by
  obtain ⟨later, rfl⟩ := List.head?_eq_some_iff.1 hf
  rcases List.mem_cons.1 ht with rfl | hlater
  · exact le_rfl
  · exact (h.2 first List.mem_cons_self).trans (List.rel_of_pairwise_cons h.1 hlater).le

theorem InOrder.le_last {ts : List Token} {last t : Token} (h : InOrder ts)
    (hl : ts.getLast? = some last) (ht : t ∈ ts) : t.span.last ≤ last.span.last := by
  obtain ⟨before, rfl⟩ := List.getLast?_eq_some_iff.1 hl
  obtain ⟨-, hlast, hbefore⟩ := inOrder_append.1 h
  rcases List.mem_append.1 ht with hmem | hmem
  · exact (hbefore t hmem last List.mem_cons_self).le.trans (hlast.2 last List.mem_cons_self)
  · rw [List.mem_singleton.1 hmem]

theorem exists_ends {ts : List Token} (hne : ts ≠ []) :
    ∃ first ∈ ts, ∃ last ∈ ts, ts.head? = some first ∧ ts.getLast? = some last :=
  ⟨_, List.head_mem hne, _, List.getLast_mem hne, List.head?_eq_some_head hne,
    List.getLast?_eq_some_getLast hne⟩

theorem covering_append (ts mid us : List Token) (ht : ts ≠ []) (hu : us ≠ [])
    (ho : InOrder (ts ++ (mid ++ us))) :
    covering (ts ++ (mid ++ us)) = mergeSpans (covering ts) (covering us) := by
  obtain ⟨a, -, b, hb, hahead, hblast⟩ := exists_ends ht
  obtain ⟨c, hc, d, -, hchead, hdlast⟩ := exists_ends hu
  have hhead : (ts ++ (mid ++ us)).head? = some a := by simp [List.head?_append, hahead]
  have hlast : (ts ++ (mid ++ us)).getLast? = some d := by simp [List.getLast?_append, hdlast]
  have hac : a.span.first ≤ c.span.first := ho.first_le hhead (by simp [hc])
  have hbd : b.span.last ≤ d.span.last := ho.le_last hlast (by simp [hb])
  simp only [covering, hhead, hlast, hahead, hblast, hchead, hdlast, mergeSpans, Span.merge,
    if_pos hac, max_eq_right hbd]

def Span.Encloses (outer inner : Span) : Prop :=
  outer.first ≤ inner.first ∧ inner.last ≤ outer.last

theorem covering_subset {ts us : List Token} (hu : us ≠ []) (hsub : us ⊆ ts) (ho : InOrder ts) :
    ∃ inner outer, covering us = some inner ∧ covering ts = some outer ∧ outer.Encloses inner := by
  obtain ⟨a, ha, b, hb, hahead, hblast⟩ := exists_ends hu
  have ht : ts ≠ [] := List.ne_nil_of_mem (hsub ha)
  obtain ⟨p, -, q, -, hphead, hqlast⟩ := exists_ends ht
  simp only [covering, hahead, hblast, hphead, hqlast]
  exact ⟨_, _, rfl, rfl, ho.first_le hphead (hsub ha), ho.le_last hqlast (hsub hb)⟩

/-- The nodes that the text writes out: all but the zeros from which negations subtract. -/
def Expr.written : Expr → List Expr
  | e@(binary _ left right unary _) =>
    e :: ((if unary then [] else left.written) ++ right.written)
  | e@(call _ argument _) => e :: argument.written
  | e@(factorial operand _) => e :: operand.written
  | e@(group inner _) => e :: inner.written
  | e => [e]

/-- The node is the tree of a phrase among the tokens. -/
def Expr.IsPhraseIn (n : Expr) (ts : List Token) : Prop :=
  ∃ c us, us <:+: ts ∧ Derives c us n

theorem Expr.IsPhraseIn.mono {n : Expr} {ts us : List Token} (h : n.IsPhraseIn us)
    (hsub : us <:+: ts) : n.IsPhraseIn ts := by
  obtain ⟨c, vs, hvs, hd⟩ := h
  exact ⟨c, vs, hvs.trans hsub, hd⟩

namespace Derives

variable {c : Category} {ts : List Token} {e n child : Expr}

theorem ne_nil (h : Derives c ts e) : ts ≠ [] := by
  induction h with
  | primary _ ih | suffixed _ ih | factor _ ih | term _ ih => exact ih
  | number | named | call | group | factorial | power | negation | product | sum => simp

/-- The tree of a phrase spans the tokens of the phrase. -/
theorem span_eq (h : Derives c ts e) (ho : InOrder ts) : e.span = covering ts := by
  induction h using Derives.byRules with
  | number | named => rfl
  | @call f name opening closing ts e =>
    exact (covering_append [name] (opening :: ts) [closing] (by simp) (by simp)
      (by simpa using ho)).symm
  | @group opening closing ts e =>
    exact (covering_append [opening] ts [closing] (by simp) (by simp) ho).symm
  | weaken _ _ ih => exact ih ho
  | @factorial bang ts e h hb ih =>
    have hcover := covering_append ts [] [bang] h.ne_nil (by simp) ho
    rw [List.nil_append, ← ih (inOrder_append.1 ho).1] at hcover
    exact hcover.symm
  | @negation minus ts e hm h ih =>
    have hcover := covering_append [minus] [] ts (by simp) h.ne_nil ho
    rw [List.nil_append, ← ih ho.tail] at hcover
    exact hcover.symm
  | @joined op u ts us left right hl hu hr ihl ihr =>
    have hcover := covering_append ts [u] us hl.ne_nil hr.ne_nil ho
    obtain ⟨hts, hrest, -⟩ := inOrder_append.1 ho
    rw [← ihl hts, ← ihr hrest.tail] at hcover
    exact hcover.symm

theorem isPhraseIn (h : Derives c ts e) : e.IsPhraseIn ts := ⟨c, ts, List.infix_rfl, h⟩

/-- Every node that the text writes out is the tree of a phrase inside. -/
theorem isPhraseIn_of_mem_written (h : Derives c ts e) (hn : n ∈ e.written) :
    n.IsPhraseIn ts := by
  induction h using Derives.byRules with
  | number ht => exact List.mem_singleton.1 hn ▸ (number ht).isPhraseIn
  | named ht => exact List.mem_singleton.1 hn ▸ (named ht).isPhraseIn
  | @call f name opening closing ts e hname ho h hc ih =>
    rcases List.mem_cons.1 hn with rfl | hn
    · exact (call hname ho h hc).isPhraseIn
    · exact (ih hn).mono ⟨[name, opening], [closing], by simp⟩
  | @group opening closing ts e ho h hc ih =>
    rcases List.mem_cons.1 hn with rfl | hn
    · exact (group ho h hc).isPhraseIn
    · exact (ih hn).mono ⟨[opening], [closing], by simp⟩
  | weaken _ _ ih => exact ih hn
  | @factorial bang ts e h hb ih =>
    rcases List.mem_cons.1 hn with rfl | hn
    · exact (factorial h hb).isPhraseIn
    · exact (ih hn).mono ⟨[], [bang], by simp⟩
  | @negation minus ts e hm h ih =>
    rcases List.mem_cons.1 hn with rfl | hn
    · exact (negation hm h).isPhraseIn
    · exact (ih hn).mono ⟨[minus], [], by simp⟩
  | @joined op u ts us left right hl hu hr ihl ihr =>
    rcases List.mem_cons.1 hn with rfl | hn
    · exact (hl.joined hu hr).isPhraseIn
    · rcases List.mem_append.1 hn with hn | hn
      · exact (ihl hn).mono ⟨[], u :: us, by simp⟩
      · exact (ihr hn).mono ⟨ts ++ [u], [], by simp⟩

theorem mem_written (h : Derives c ts e) (hn : n ∈ e.nodes) :
    n ∈ e.written ∨ ∃ span, n = .number 0.0 span := by
  induction h using Derives.byRules with
  | number | named => exact .inl hn
  | call _ _ _ _ ih | group _ _ _ ih | factorial _ _ ih =>
    rcases List.mem_cons.1 hn with rfl | hn
    · exact .inl List.mem_cons_self
    · exact (ih hn).imp_left (List.mem_cons_of_mem _)
  | weaken _ _ ih => exact ih hn
  | @negation minus ts e hm h ih =>
    rcases List.mem_cons.1 hn with rfl | hn
    · exact .inl List.mem_cons_self
    · rcases List.mem_append.1 hn with hzero | hn
      · exact .inr ⟨_, List.mem_singleton.1 hzero⟩
      · exact (ih hn).imp_left (List.mem_cons_of_mem _)
  | joined _ _ _ ihl ihr =>
    rcases List.mem_cons.1 hn with rfl | hn
    · exact .inl List.mem_cons_self
    · rcases List.mem_append.1 hn with hn | hn
      · exact (ihl hn).imp_left fun h => List.mem_cons_of_mem _ (List.mem_append_left _ h)
      · exact (ihr hn).imp_left fun h => List.mem_cons_of_mem _ (List.mem_append_right _ h)

theorem exists_child (h : Derives c ts e) (hc : child ∈ e.children) :
    ∃ us, us ≠ [] ∧ us <:+: ts ∧ (InOrder us → child.span = covering us) := by
  induction h using Derives.byRules with
  | number | named => cases hc
  | @call f name opening closing ts e _ _ h =>
    obtain rfl := List.mem_singleton.1 hc
    exact ⟨ts, h.ne_nil, ⟨[name, opening], [closing], by simp⟩, h.span_eq⟩
  | @group opening closing ts e _ h =>
    obtain rfl := List.mem_singleton.1 hc
    exact ⟨ts, h.ne_nil, ⟨[opening], [closing], by simp⟩, h.span_eq⟩
  | weaken _ _ ih => exact ih hc
  | @factorial bang ts e h =>
    obtain rfl := List.mem_singleton.1 hc
    exact ⟨ts, h.ne_nil, ⟨[], [bang], by simp⟩, h.span_eq⟩
  | @negation minus ts e _ h =>
    rcases List.mem_cons.1 hc with rfl | hc
    · exact ⟨[minus], by simp, ⟨[], ts, by simp⟩, fun _ => rfl⟩
    · obtain rfl := List.mem_singleton.1 hc
      exact ⟨ts, h.ne_nil, ⟨[minus], [], by simp⟩, h.span_eq⟩
  | @joined op u ts us left right hl _ hr =>
    rcases List.mem_cons.1 hc with rfl | hc
    · exact ⟨ts, hl.ne_nil, ⟨[], u :: us, by simp⟩, hl.span_eq⟩
    · obtain rfl := List.mem_singleton.1 hc
      exact ⟨us, hr.ne_nil, ⟨ts ++ [u], [], by simp⟩, hr.span_eq⟩

theorem exists_operands {op : Option Operator} {left right : Expr} {span : Option Span}
    (h : Derives c ts (.binary op left right false span)) :
    ∃ cl cr us u vs, ts = us ++ u :: vs ∧ Derives cl us left ∧ Derives cr vs right := by
  generalize he : Expr.binary op left right false span = e at h
  induction h using Derives.byRules with
  | number | named | call | group | factorial => cases he
  | weaken _ _ ih => exact ih he
  | negation => simp [Expr.negation] at he
  | @joined op' u us vs left' right' hl _ hr =>
    simp only [Expr.joined, Expr.binary.injEq] at he
    obtain ⟨-, rfl, rfl, -⟩ := he
    exact ⟨_, _, us, u, vs, rfl, hl, hr⟩

end Derives

end Calculator
