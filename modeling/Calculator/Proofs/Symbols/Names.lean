import Calculator.Proofs.Grammar.Parsing
import Calculator.Proofs.Lexing.Munch
import Calculator.Proofs.Symbols.Table

/-!
# Names in tables and in texts

A table takes a name exactly if the text of that name is read as one identifier and is not too long.
So a variable that can be stored can be read, in whatever text its name stands, and a variable that
a text reads can be stored unless its name is too long.
-/

namespace Calculator

open Text (LooseText)

/-- The text is read as one identifier, which is all of it, and the end behind it. -/
def ReadsAsVariable (name : String) : Prop :=
  ∃ t fin, tokenize name = ⟨[t], .ok fin⟩ ∧ t.kind = .identifier ∧ t.text = name ∧
    fin.kind = .finish

theorem mem_constantNames_iff {name : String} :
    name ∈ constantNames ↔ constantValue? name ≠ none := by
  constructor
  · intro hmem
    simp only [constantNames, List.mem_cons, List.not_mem_nil, or_false] at hmem
    rcases hmem with rfl | rfl | rfl | rfl | rfl <;> nofun
  · intro hvalue
    unfold constantValue? at hvalue
    split at hvalue
    · simp [constantNames]
    · simp [constantNames]
    · simp [constantNames]
    · simp [constantNames]
    · simp [constantNames]
    · exact absurd rfl hvalue

theorem wordKind_eq_identifier_iff {name : String} :
    wordKind name = .identifier ↔
      FunctionKind.ofName? name = none ∧ constantValue? name = none := by
  unfold wordKind
  cases FunctionKind.ofName? name with
  | some f => simp
  | none =>
    simp only [true_and]
    split
    · next hmem => simpa using mem_constantNames_iff.1 hmem
    · next hmem => simpa [mem_constantNames_iff] using hmem

theorem isSeparator_of_isWordStart {c : Char} (h : isWordStart c = true) :
    isSeparator c = false := by
  rw [← Bool.not_eq_true]
  intro hsep
  have hne : c ≠ ' ' ∧ c ≠ '\t' ∧ c ≠ '\r' ∧ c ≠ '\n' := by
    refine ⟨?_, ?_, ?_, ?_⟩ <;> rintro rfl <;> exact absurd h (by decide +kernel)
  simp [isSeparator, hne] at hsep

namespace Lexer

theorem isWord_iff {cs : List Char} : IsWord cs ↔ IsWordText cs := by
  constructor
  · rintro ⟨c, tail, rfl, hstart, -, -, hpart⟩
    exact ⟨c, tail, rfl, hstart, fun d hd => hpart d (List.mem_cons_of_mem c hd)⟩
  · rintro ⟨c, tail, rfl, hstart, hpart⟩
    obtain ⟨hdigit, hpoint⟩ := not_numeral_of_isWordStart hstart
    refine ⟨c, tail, rfl, hstart, by simp [hdigit, hpoint], isSeparator_of_isWordStart hstart,
      List.forall_mem_cons.2 ⟨isWordPart_of_isWordStart hstart, hpart⟩⟩

end Lexer

theorem isVariableName_iff {name : String} : IsVariableName name ↔
    name.length ≤ maxNameLength ∧ IsWordText name.toList ∧ wordKind name = .identifier := by
  simp only [IsVariableName, wordKind_eq_identifier_iff, isValidName, Bool.and_eq_true,
    decide_eq_true_iff, Option.isNone_iff_eq_none, List.all_eq_true]
  have hword : IsWordText name.toList ↔ isWordStart (name.toList.headD ' ') = true ∧
      ∀ c ∈ name.toList, isWordPart c = true := by
    cases name.toList with
    | nil =>
      constructor
      · rintro ⟨c, tail, heq, -⟩
        cases heq
      · intro h
        exact absurd h.1 (by decide +kernel)
    | cons c tail =>
      rw [List.forall_mem_cons]
      constructor
      · rintro ⟨d, tail, heq, hstart, hpart⟩
        cases heq
        exact ⟨hstart, Lexer.isWordPart_of_isWordStart hstart, hpart⟩
      · rintro ⟨hstart, -, hpart⟩
        exact ⟨c, tail, rfl, hstart, hpart⟩
  rw [hword]
  tauto

theorem readsAsVariable_iff {name : String} :
    ReadsAsVariable name ↔ IsWordText name.toList ∧ wordKind name = .identifier := by
  constructor
  · rintro ⟨t, fin, ht, hk, rfl, -⟩
    have hmem : t ∈ (Lexer.run t.text.toList .start).tokens := by
      change t ∈ (tokenize t.text).tokens
      simp [ht]
    obtain ⟨hword, hkind⟩ := Lexer.isWord_of_mem_run hmem (.inr hk)
    exact ⟨Lexer.isWord_iff.1 hword, hkind ▸ hk⟩
  · rintro ⟨hword, hk⟩
    obtain ⟨t, hkind, htext, hrun⟩ := Lexer.run_word (Lexer.isWord_iff.2 hword) detached_nil .start
    rw [String.ofList_toList] at hkind htext
    rw [List.append_nil, Lexer.run_nil] at hrun
    exact ⟨t, _, hrun, hkind.trans hk, htext, rfl⟩

/-- A name that a variable can have is read as an identifier wherever it stands in a text. -/
theorem kind_of_isVariableName {text : String} {t : Token} (ht : t ∈ (tokenize text).tokens)
    (hname : IsVariableName t.text) : t.kind = .identifier := by
  obtain ⟨-, ⟨c, tail, htext, hstart, -⟩, hkind⟩ := isVariableName_iff.1 hname
  obtain ⟨front, blanks, rest, hplace, hscan, -⟩ := exists_scans_ending text
  have hadmitted := (hscan.standsIn hplace t ht).admitted
  rw [htext] at hadmitted
  have hword : wordKind (String.ofList (c :: tail)) = .identifier := by
    rw [← htext, String.ofList_toList, hkind]
  -- a numeral or a sign starts with no character that a word starts with
  cases hk : t.kind with
  | identifier => rfl
  | constant | function f =>
    rw [hk] at hadmitted
    cases hadmitted.2.symm.trans hword
  | finish =>
    rw [hk] at hadmitted
    exact hadmitted.elim
  | number =>
    rw [hk] at hadmitted
    obtain ⟨hdigit, hpoint⟩ := Lexer.not_numeral_of_isWordStart hstart
    simpa [hdigit, hpoint] using hadmitted.2.2 c List.mem_cons_self
  | plus | minus | star | slash | caret | bang | leftParen | rightParen | comma =>
    rw [hk] at hadmitted
    obtain ⟨d, heq, hsign⟩ := hadmitted
    cases heq
    have hpart := (apart_of_mem_marks (Lexer.mem_marks_of_signKind? hsign)).1
    rw [Lexer.isWordPart_of_isWordStart hstart] at hpart
    cases hpart

theorem Derives.named_mem_nodes {c : Category} {ts : List Token} {e : Expr} {t : Token}
    (h : Derives c ts e) (ht : t ∈ ts) (hk : t.kind = .identifier) :
    .named t.text (some t.span) ∈ e.nodes := by
  have hne {u : Token} {kind : TokenKind} (hu : u.kind = kind) (hkind : kind ≠ .identifier) :
      t ≠ u := by
    rintro rfl
    exact hkind (hu.symm.trans hk)
  induction h using Derives.byRules with
  | number hu => exact absurd (List.mem_singleton.1 ht) (hne hu (by decide))
  | named => simp [List.mem_singleton.1 ht, Expr.nodes]
  | @call f name opening closing ts e hn ho h hc ih =>
    have hmem : t ∈ ts := by simpa [hne hn, hne ho, hne hc] using ht
    exact List.mem_cons_of_mem _ (ih hmem)
  | @group opening closing ts e ho h hc ih =>
    have hmem : t ∈ ts := by simpa [hne ho, hne hc] using ht
    exact List.mem_cons_of_mem _ (ih hmem)
  | weaken _ _ ih => exact ih ht
  | @factorial bang ts e h hb ih =>
    have hmem : t ∈ ts := by simpa [hne hb] using ht
    exact List.mem_cons_of_mem _ (ih hmem)
  | @negation minus ts e hm h ih =>
    have hmem : t ∈ ts := by simpa [hne hm] using ht
    exact List.mem_cons_of_mem _ (List.mem_append_right _ (ih hmem))
  | @joined op u ts us left right hl hu hr ihl ihr =>
    have hsign : t ≠ u := hne hu (by cases op <;> decide)
    rcases List.mem_append.1 ht with ht | ht
    · exact List.mem_cons_of_mem _ (List.mem_append_left _ (ihl ht))
    · exact List.mem_cons_of_mem _ (List.mem_append_right _ (ihr (List.mem_of_ne_of_mem hsign ht)))

theorem SymbolTable.resolve_of_isVariableName {t : SymbolTable} {name : String} {v : Float}
    (hn : IsVariableName name) (h : t.get? name = some v) (span : Option Span) :
    t.resolve name span = .ok v := by
  rw [resolve, hn.2, Option.none_or, h]

/-- The name of a variable alone is parsed to a tree of one node, which has the rounded value. -/
theorem exists_parse_of_isVariableName {t : SymbolTable} {name : String} {v : Float}
    (hn : IsVariableName name) (h : t.get? name = some v) {capacity : Int} (hc : 1 ≤ capacity) :
    ∃ p, parse name capacity = .ok p ∧ ∀ settings traced,
      Environment.evaluate ⟨t, settings, traced⟩ p.tree = .ok (settings.applyFormat v) := by
  obtain ⟨-, hword, hkind⟩ := isVariableName_iff.1 hn
  obtain ⟨token, fin, htokens, hk, htext, -⟩ := readsAsVariable_iff.2 ⟨hword, hkind⟩
  have hd : Derives .expression (tokenize name).tokens (.named name (some token.span)) := by
    rw [htokens, ← htext]
    exact (Derives.named (.inr hk)).toExpression
  have hending : (tokenize name).ending = .ok fin := by rw [htokens]
  refine ⟨_, parse_of_derives hending hd hc, fun settings traced => ?_⟩
  have hresolve := t.resolve_of_isVariableName hn h (some token.span)
  simp only [Environment.evaluate, Environment.walk, Walk.leaf, hresolve]
  rfl

/-- What can be stored can be read, and the other way round. In a table with room, a name takes a
finite number exactly if it has at most 19 characters and is read as one identifier; half of a pair
is read as nothing. Such a name is a variable in every text in which it is a token, and alone it has
the stored number, rounded. Every identifier of at most 19 characters in a text takes a number. -/
theorem set_iff_readsAsVariable {t : SymbolTable} {value : Value} {v : Float}
    (hroom : (t.size : Int) < t.capacity) (hvalue : value.toFloat? = .ok (some v))
    (hv : v.isFinite = true) :
    (∀ name : LooseText, (∃ t', t.set (.text name) value = .ok t') ↔
      ∃ s : String, name = s ∧ s.length ≤ 19 ∧ ReadsAsVariable s) ∧
    (∀ (s : String) (t' : SymbolTable), t.set (.text s) value = .ok t' →
      (∀ text, ∀ token ∈ (tokenize text).tokens, token.text = s → token.kind = .identifier ∧
        ∀ capacity p, parse text capacity = .ok p →
          .named s (some token.span) ∈ p.tree.nodes) ∧
      ∀ capacity, 1 ≤ capacity → ∃ p, parse s capacity = .ok p ∧ ∀ settings traced,
        Environment.evaluate ⟨t', settings, traced⟩ p.tree = .ok (settings.applyFormat v)) ∧
    ∀ text, ∀ token ∈ (tokenize text).tokens, token.kind = .identifier →
      token.text.length ≤ 19 → ∃ t', t.set (.text token.text) value = .ok t' := by
  have hset {name : LooseText} {t' : SymbolTable} : t.set (.text name) value = .ok t' ↔
      ∃ s : String, name = s ∧ IsVariableName s ∧ t' = t.stored s v := by
    rw [SymbolTable.set_eq_ok_iff]
    constructor
    · rintro ⟨s, w, ⟨hname, hs⟩, ⟨hw, -⟩, -, rfl⟩
      cases hw.symm.trans hvalue
      exact ⟨s, Value.text.inj hname, hs, rfl⟩
    · rintro ⟨s, rfl, hs, rfl⟩
      exact ⟨s, v, ⟨rfl, hs⟩, ⟨hvalue, hv⟩, .inr hroom, rfl⟩
  have hname {s : String} : IsVariableName s ↔ s.length ≤ 19 ∧ ReadsAsVariable s := by
    rw [isVariableName_iff, readsAsVariable_iff]
    rfl
  refine ⟨fun name => ⟨?_, ?_⟩, fun s t' ht' => ?_, fun text token htoken hkind hlength => ?_⟩
  · rintro ⟨t', ht'⟩
    obtain ⟨s, rfl, hs, -⟩ := hset.1 ht'
    exact ⟨s, rfl, hname.1 hs⟩
  · rintro ⟨s, rfl, hs⟩
    exact ⟨_, hset.2 ⟨s, rfl, hname.2 hs, rfl⟩⟩
  · obtain ⟨_, heq, hs, rfl⟩ := hset.1 ht'
    obtain rfl := LooseText.ofString_injective heq
    refine ⟨fun text token htoken htext => ?_, fun capacity hc => ?_⟩
    · subst htext
      have hkind := kind_of_isVariableName htoken hs
      exact ⟨hkind, fun capacity p hp => (derives_of_parse hp).2.named_mem_nodes htoken hkind⟩
    · exact exists_parse_of_isVariableName hs (by simp) hc
  · obtain ⟨hword, hkind'⟩ := Lexer.isWord_of_mem_run htoken (.inr hkind)
    have hread := readsAsVariable_iff.2 ⟨Lexer.isWord_iff.1 hword, hkind'.symm.trans hkind⟩
    exact ⟨_, hset.2 ⟨token.text, rfl, hname.2 ⟨hlength, hread⟩, rfl⟩⟩

/-- In an empty table, the name that is read in `2*x` takes a number, and is a node of the tree. -/
theorem set_iff_readsAsVariable_x :
    ((SymbolTable.empty maxVariables).size : Int) < (SymbolTable.empty maxVariables).capacity ∧
    (Value.float 2.5).toFloat? = .ok (some 2.5) ∧ (2.5 : Float).isFinite = true ∧
    ∃ t' p, (SymbolTable.empty maxVariables).set (.text "x") (.float 2.5) = .ok t' ∧
      parse "2*x" maxNodes = .ok p ∧ .named "x" (some ⟨2, 2, 1, 3⟩) ∈ p.tree.nodes ∧
      ∃ q, parse "x" 1 = .ok q ∧ ∀ settings traced,
        Environment.evaluate ⟨t', settings, traced⟩ q.tree = .ok (settings.applyFormat 2.5) := by
  have hroom : ((SymbolTable.empty maxVariables).size : Int) <
      (SymbolTable.empty maxVariables).capacity := by decide
  have hfinite : (2.5 : Float).isFinite = true := by decide
  have hx : (⟨.identifier, "x", ⟨2, 2, 1, 3⟩⟩ : Token) ∈ (tokenize "2*x").tokens := by
    decide +kernel
  have hparse : (parse "2*x" maxNodes).toOption.isSome = true := by decide +kernel
  obtain ⟨p, hp⟩ := Option.isSome_iff_exists.1 hparse
  obtain ⟨-, hread, hstore⟩ :=
    @set_iff_readsAsVariable (.empty maxVariables) (.float 2.5) 2.5 hroom rfl hfinite
  obtain ⟨t', ht'⟩ := hstore "2*x" _ hx rfl (by decide)
  obtain ⟨htoken, hvalue⟩ := hread "x" t' ht'
  have hok := toOption_eq_some_iff.1 hp
  exact ⟨hroom, rfl, hfinite, t', p, ht', hok, (htoken "2*x" _ hx rfl).2 _ p hok,
    hvalue 1 (by decide)⟩

end Calculator
