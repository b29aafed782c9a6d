import Calculator.Proofs.Lexing.Scan
import Calculator.Proofs.Printing.Spelling

/-!
# Derivations depend on the kinds of the tokens

Tokens of the same kinds form the same phrases. If their texts are the same as well, the trees
differ in the places of their nodes only.
-/

namespace Calculator

theorem Expr.bare_joined (op : Operator) (left right : Expr) :
    (joined op left right).bare = .binary (some op) left.bare right.bare false none := rfl

theorem Expr.bare_negation (e : Expr) (sign : Option Span) :
    (negation e sign).bare = .binary (some .sub) (.number 0.0 none) e.bare true none := rfl

/-- Tokens that are exchanged for tokens of the same kinds still form a phrase. The tree is the same
but for its places if the texts of the tokens are the same. -/
theorem Derives.exchange {α : Type} {f : Token → α} (hf : ∀ t u, f t = f u → t.kind = u.kind)
    {c : Category} {ts us : List Token} {e : Expr} (h : Derives c ts e)
    (hs : us.map f = ts.map f) :
    ∃ e', Derives c us e' ∧ ((∀ t u, f t = f u → t.text = u.text) → e'.bare = e.bare) := by
  induction h using Derives.byRules generalizing us with
  | @number t ht =>
    obtain ⟨u, rfl, hu⟩ := List.map_eq_singleton_iff.1 hs
    refine ⟨_, .number ((hf u t hu).trans ht), fun htext => ?_⟩
    rw [Expr.bare, Expr.bare, htext u t hu]
  | @named t ht =>
    obtain ⟨u, rfl, hu⟩ := List.map_eq_singleton_iff.1 hs
    refine ⟨_, .named ((hf u t hu).symm ▸ ht), fun htext => ?_⟩
    rw [Expr.bare, Expr.bare, htext u t hu]
  | call hn ho h hc ih =>
    simp only [List.map_cons, List.map_append, List.map_nil, List.map_eq_cons_iff,
      List.map_eq_append_iff, List.map_eq_nil_iff] at hs
    obtain ⟨name, _, rfl, hname, opening, _, rfl, hopening, vs, _, rfl, hvs, closing, _, rfl,
      hclosing, rfl⟩ := hs
    obtain ⟨e', hd, hbare⟩ := ih hvs
    refine ⟨_, .call ((hf _ _ hname).trans hn) ((hf _ _ hopening).trans ho) hd
      ((hf _ _ hclosing).trans hc), fun htext => ?_⟩
    rw [Expr.bare, Expr.bare, hbare htext]
  | group ho h hc ih =>
    simp only [List.map_cons, List.map_append, List.map_nil, List.map_eq_cons_iff,
      List.map_eq_append_iff, List.map_eq_nil_iff] at hs
    obtain ⟨opening, _, rfl, hopening, vs, _, rfl, hvs, closing, _, rfl, hclosing, rfl⟩ := hs
    obtain ⟨e', hd, hbare⟩ := ih hvs
    refine ⟨_, .group ((hf _ _ hopening).trans ho) hd ((hf _ _ hclosing).trans hc),
      fun htext => ?_⟩
    rw [Expr.bare, Expr.bare, hbare htext]
  | weaken h hc ih =>
    obtain ⟨e', hd, hbare⟩ := ih hs
    exact ⟨e', hd.weaken hc, hbare⟩
  | factorial h hb ih =>
    simp only [List.map_append, List.map_eq_append_iff] at hs
    obtain ⟨vs, _, rfl, hvs, hlast⟩ := hs
    obtain ⟨bang, rfl, hbang⟩ := List.map_eq_singleton_iff.1 hlast
    obtain ⟨e', hd, hbare⟩ := ih hvs
    refine ⟨_, .factorial hd ((hf _ _ hbang).trans hb), fun htext => ?_⟩
    rw [Expr.bare, Expr.bare, hbare htext]
  | negation hm h ih =>
    obtain ⟨minus, vs, rfl, hminus, hvs⟩ := List.map_eq_cons_iff.1 hs
    obtain ⟨e', hd, hbare⟩ := ih hvs
    refine ⟨_, .negation ((hf _ _ hminus).trans hm) hd, fun htext => ?_⟩
    rw [Expr.bare_negation, Expr.bare_negation, hbare htext]
  | joined hl hu hr ihl ihr =>
    simp only [List.map_append, List.map_cons, List.map_eq_append_iff, List.map_eq_cons_iff] at hs
    obtain ⟨vs, _, rfl, hvs, sign, ws, rfl, hsign, hws⟩ := hs
    obtain ⟨left, hdl, hleft⟩ := ihl hvs
    obtain ⟨right, hdr, hright⟩ := ihr hws
    refine ⟨_, hdl.joined ((hf _ _ hsign).trans hu) hdr, fun htext => ?_⟩
    rw [Expr.bare_joined, Expr.bare_joined, hleft htext, hright htext]

theorem Derives.exchange_lexemes {c : Category} {ts us : List Token} {e : Expr}
    (h : Derives c ts e) (hs : us.map Token.lexeme = ts.map Token.lexeme) :
    ∃ e', Derives c us e' ∧ e'.bare = e.bare := by
  obtain ⟨e', hd, hbare⟩ := h.exchange (fun t u htu => congrArg Prod.fst htu) hs
  exact ⟨e', hd, hbare fun t u htu => congrArg Prod.snd htu⟩

theorem Derives.exchange_kinds {c : Category} {ts us : List Token} {e : Expr}
    (h : Derives c ts e) (hs : us.map Token.kind = ts.map Token.kind) :
    ∃ e', Derives c us e' := by
  obtain ⟨e', hd, -⟩ := h.exchange (fun _ _ htu => htu) hs
  exact ⟨e', hd⟩

end Calculator
