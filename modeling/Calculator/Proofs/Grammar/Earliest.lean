import Calculator.Proofs.Grammar.Faithful
import Calculator.Proofs.Grammar.Viable

/-!
# The first error is reported

A text is refused at the first token that no expression has behind the tokens before it. Everything
before that token is the beginning of an accepted text. A character at which no lexeme starts is
reported only if the tokens before it are such a beginning, so that it never hides an error that
comes first.
-/

namespace Calculator

/-- The text is parsed if the pool is large enough. -/
def Accepted (text : String) : Prop := ∃ capacity p, parse text capacity = .ok p

/-- An accepted text starts with the tokens. -/
def Viable (ts : List Token) : Prop := ∃ text, Accepted text ∧ ts <+: (tokenize text).all

/-- No accepted text starts with tokens of these kinds. -/
def Hopeless (ts : List Token) : Prop :=
  ∀ text, Accepted text → ¬ts.map Token.kind <+: (tokenize text).all.map Token.kind

/-- The tokens of a text that start before a place. -/
def tokensBefore (text : String) (place : Span) : List Token :=
  (tokenize text).tokens.filter (·.span.first < place.first)

/-- No accepted text goes on with the token at the place behind the tokens before it. -/
def Misplaced (text : String) (place : Span) : Prop :=
  ∃ t, t.span = place ∧ tokensBefore text place ++ [t] <+: (tokenize text).all ∧
    Hopeless (tokensBefore text place ++ [t])

/-- The character at the place is no blank, and no lexeme starts with it. -/
def NoLexemeAt (text : String) (place : Span) : Prop :=
  ∃ front c cs, text.toList = front ++ c :: cs ∧ place.first = front.length ∧
    isSeparator c = false ∧ ∀ lexeme, lexeme <+: c :: cs → ¬IsLexeme lexeme

variable {text : String} {capacity : Int} {e : MathError} {ts us vs ws : List Token}
  {t fin : Token} {place : Span}

theorem Viable.mono (h : Viable us) (hp : ts <+: us) : Viable ts := by
  obtain ⟨text, hacc, hus⟩ := h
  exact ⟨text, hacc, hp.trans hus⟩

theorem Hopeless.not_viable (h : Hopeless ts) : ¬Viable ts := by
  rintro ⟨text, hacc, hp⟩
  exact h text hacc (hp.map Token.kind)

theorem kind_of_ending (h : (tokenize text).ending = .ok fin) : fin.kind = .finish := by
  obtain ⟨front, rest, -, -, ⟨-, hend⟩ | ⟨c, cs, -, -, -, hend⟩⟩ := exists_ending text
  · rw [h] at hend
    cases hend
    rfl
  · rw [h] at hend
    cases hend

theorem kind_ne_finish_of_mem (h : t ∈ (tokenize text).tokens) : t.kind ≠ .finish := by
  obtain ⟨front, rest, -, hall, -⟩ := exists_ending text
  exact (hall t h).1

theorem Accepted.exists_derives (h : Accepted text) :
    (tokenize text).all.map Token.kind = (tokenize text).tokens.map Token.kind ++ [.finish] ∧
      ∃ tree, Derives .expression (tokenize text).tokens tree := by
  obtain ⟨capacity, p, hp⟩ := h
  obtain ⟨⟨fin, hf⟩, hd⟩ := derives_of_parse hp
  refine ⟨?_, p.tree, hd⟩
  simp only [TokenList.all, hf, List.map_append, List.map_cons, List.map_nil, kind_of_ending hf]

/-- What the parser has read is the beginning of an accepted text. -/
theorem viable_of_follows {s : ParserState} (h : s.Follows us)
    (ht : (tokenize text).tokens = us ++ vs) : Viable us := by
  obtain ⟨front, rest, -, hscan⟩ := Lexer.exists_scans ht
  obtain ⟨ws, fin, tree, hrun, hd⟩ := s.exists_completion h (Cursor.start.pastAll front)
  have hends : EndsAlike rest s.completion := endsAlike_of_detached (detached_mark (by decide) _)
  obtain ⟨completed, htokens⟩ : ∃ completed, tokenize completed = ⟨us ++ ws, .ok fin⟩ := by
    refine ⟨String.ofList (front ++ s.completion), ?_⟩
    rw [tokenize, String.toList_ofList, (hscan.exchange hends).run, hrun]
    rfl
  have hend : (tokenize completed).ending = .ok fin := by rw [htokens]
  have hderives : Derives .expression (tokenize completed).tokens tree := by rwa [htokens]
  refine ⟨completed, ⟨tree.size, _, parse_of_derives hend hderives le_rfl⟩, ws ++ [fin], ?_⟩
  simp [TokenList.all, htokens]

theorem hopeless_of_not_derives (ht : t.kind ≠ .finish)
    (h : ∀ ws tree, ¬Derives .expression (us ++ t :: ws) tree) : Hopeless (us ++ [t]) := by
  intro text hacc hp
  obtain ⟨hall, tree, hd⟩ := hacc.exists_derives
  rw [hall, List.prefix_concat_iff, List.map_append] at hp
  rcases hp with heq | ⟨rest, hrest⟩
  · exact ht (List.cons.inj (List.append_inj' heq rfl).2).1
  · obtain ⟨vs, ws, htokens, hvs, -⟩ := List.map_eq_append_iff.1 hrest.symm
    have hkinds : (us ++ t :: ws).map Token.kind = (tokenize text).tokens.map Token.kind := by
      simp [htokens, hvs]
    obtain ⟨tree', hd'⟩ := hd.exchange_kinds hkinds
    exact h ws tree' hd'

theorem hopeless_finish (hf : fin.kind = .finish) (h : ∀ tree, ¬Derives .expression us tree) :
    Hopeless (us ++ [fin]) := by
  intro text hacc hp
  obtain ⟨hall, tree, hd⟩ := hacc.exists_derives
  rw [hall, List.prefix_concat_iff, List.map_append] at hp
  rcases hp with heq | hp
  · obtain ⟨tree', hd'⟩ := hd.exchange_kinds (List.append_inj' heq rfl).1
    exact h tree' hd'
  · obtain ⟨t, ht, hkind⟩ := List.mem_map.1 (hp.subset (a := fin.kind) (by simp))
    exact kind_ne_finish_of_mem ht (hkind.trans hf)

/-- A refused text has a token at which no expression goes on, or ends where no expression does, or
has a character at which no lexeme starts. What stands before it is the beginning of an accepted
text. -/
theorem parse_error_cases (hfree : Unhindered text capacity)
    (h : parse text capacity = .error e) :
    (∃ us t ws, (tokenize text).tokens = us ++ t :: ws ∧ Viable us ∧ Hopeless (us ++ [t]) ∧
      e.stage = .parsing ∧ e.span = some t.span) ∨
    Viable (tokenize text).tokens ∧ ((tokenize text).ending = .error e ∨
      ∃ fin, (tokenize text).ending = .ok fin ∧ Hopeless ((tokenize text).tokens ++ [fin]) ∧
        e.stage = .parsing ∧ e.span = some fin.span) := by
  have hlimit := hfree e h
  have blamed {s : ParserState} {t : Token} (hj : s.Justified t e) :
      e.stage = .parsing ∧ e.span = some t.span :=
    (hj.resolve_left fun hsmall => hlimit hsmall.1).2
  have hstart : (ParserState.initial capacity).Follows [] := Held.nil
  rcases ParserState.exists_of_run_error hstart h with
    ⟨us, t, ws, s, htokens, hf, hstep, hfails⟩ | ⟨s, hf, hend⟩
  · refine .inl ⟨us, t, ws, htokens, viable_of_follows hf htokens, ?_,
      blamed ((s.yields_step t).of_error hstep)⟩
    have ht : t ∈ (tokenize text).tokens := by simp [htokens]
    exact hopeless_of_not_derives (kind_ne_finish_of_mem ht) fun ws' tree =>
      ParserState.not_derives_of_run (hfails (.ok t) ws') hlimit
  · refine .inr ⟨viable_of_follows hf (List.append_nil _).symm, ?_⟩
    rcases hend with hend | ⟨fin, hend, hconclude⟩
    · exact .inl hend
    · refine .inr ⟨fin, hend, hopeless_finish (kind_of_ending hend) fun tree => ?_,
        blamed ((s.yields_conclude fin).of_error hconclude)⟩
      rw [parse, TokenList.parse, hend] at h
      exact ParserState.not_derives_of_run h hlimit

theorem tokensBefore_token (h : (tokenize text).tokens = us ++ t :: ws) :
    tokensBefore text t.span = us := by
  have ho := inOrder_tokenize text
  rw [h] at ho
  obtain ⟨hus, hts, hbefore⟩ := inOrder_append.1 ho
  rw [tokensBefore, h, List.filter_append, List.filter_eq_self.2, List.filter_eq_nil_iff.2,
    List.append_nil]
  · intro u hu
    have hle := hts.first_le rfl hu
    simpa using hle
  · intro u hu
    have hlt := (hus.2 u hu).trans_lt (hbefore u hu t List.mem_cons_self)
    simpa using hlt

theorem tokensBefore_end
    (h : ∀ t ∈ (tokenize text).tokens, t.span.first < place.first) :
    tokensBefore text place = (tokenize text).tokens := by
  rw [tokensBefore, List.filter_eq_self]
  exact fun t ht => decide_eq_true (h t ht)

theorem first_lt_finish (h : (tokenize text).ending = .ok fin) :
    ∀ t ∈ (tokenize text).tokens, t.span.first < fin.span.first := by
  obtain ⟨front, rest, -, hall, ⟨-, hend⟩ | ⟨c, cs, -, -, -, hend⟩⟩ := exists_ending text
  · rw [h] at hend
    cases hend
    intro t ht
    simpa [Token.finish, Span.atCursor, Cursor.offset_pastAll, Cursor.start] using (hall t ht).2
  · rw [h] at hend
    cases hend

theorem exists_place_of_ending (h : (tokenize text).ending = .error e) :
    ∃ place, e.span = some place ∧ NoLexemeAt text place ∧
      ∀ t ∈ (tokenize text).tokens, t.span.first < place.first := by
  obtain ⟨front, rest, htext, hall, ⟨-, hend⟩ | ⟨c, cs, rfl, hc, hl, hend⟩⟩ := exists_ending text
  · rw [h] at hend
    cases hend
  · rw [h] at hend
    cases hend
    have hfirst : (Span.atCursor (Cursor.start.pastAll front) 1).first = front.length := by
      simp [Span.atCursor, Cursor.offset_pastAll, Cursor.start]
    refine ⟨_, rfl, ⟨front, c, cs, htext, hfirst, hc, ?_⟩, fun t ht => ?_⟩
    · exact fun lexeme hp => Lexer.not_isLexeme_of_lexeme? hl hp
    · rw [hfirst]
      exact (hall t ht).2

theorem prefix_all (h : (tokenize text).tokens = us ++ t :: ws) :
    us ++ [t] <+: (tokenize text).tokens ∧ us ++ [t] <+: (tokenize text).all := by
  have hp : us ++ [t] <+: (tokenize text).tokens := ⟨ws, by simp [h]⟩
  refine ⟨hp, hp.trans ?_⟩
  unfold TokenList.all
  split
  · exact List.prefix_append _ _
  · exact List.prefix_rfl

/-- The error of a refused text stands where the text can no longer become an accepted one. -/
theorem exists_place_of_parse_error (hfree : Unhindered text capacity)
    (h : parse text capacity = .error e) :
    ∃ place, e.span = some place ∧ Viable (tokensBefore text place) ∧
      (e.stage = .parsing ∧ Misplaced text place ∨ e.stage = .lexing ∧ NoLexemeAt text place) := by
  rcases parse_error_cases hfree h with
    ⟨us, t, ws, htokens, hviable, hhopeless, hstage, hspan⟩ |
    ⟨hviable, hend | ⟨fin, hend, hhopeless, hstage, hspan⟩⟩
  · have hbefore := tokensBefore_token htokens
    refine ⟨t.span, hspan, hbefore ▸ hviable, .inl ⟨hstage, t, rfl, ?_, hbefore ▸ hhopeless⟩⟩
    rw [hbefore]
    exact (prefix_all htokens).2
  · obtain ⟨place, hspan, hnone, hlt⟩ := exists_place_of_ending hend
    exact ⟨place, hspan, (tokensBefore_end hlt).symm ▸ hviable,
      .inr ⟨Lexer.failsIn_run _ _ e hend, hnone⟩⟩
  · have hbefore := tokensBefore_end (first_lt_finish hend)
    refine ⟨fin.span, hspan, hbefore.symm ▸ hviable,
      .inl ⟨hstage, fin, rfl, ?_, hbefore.symm ▸ hhopeless⟩⟩
    rw [hbefore, TokenList.all, hend]

/-- The error of the lexer is reported, or an error of the parser that stands before it. -/
theorem parse_error_of_ending (hfree : Unhindered text capacity)
    (hend : (tokenize text).ending = .error e) :
    Viable (tokenize text).tokens ∧ parse text capacity = .error e ∨
    ¬Viable (tokenize text).tokens ∧ ∃ e' place place', parse text capacity = .error e' ∧
      e'.stage = .parsing ∧ e'.span = some place' ∧ e.span = some place ∧
      place'.first < place.first := by
  obtain ⟨e', he'⟩ : ∃ e', parse text capacity = .error e' := by
    cases hp : parse text capacity with
    | error e' => exact ⟨e', rfl⟩
    | ok p =>
      obtain ⟨fin, hf⟩ := (derives_of_parse hp).1
      rw [hend] at hf
      cases hf
  rcases parse_error_cases hfree he' with
    ⟨us, t, ws, htokens, -, hhopeless, hstage, hspan⟩ | ⟨hviable, hend' | ⟨fin, hend', -⟩⟩
  · obtain ⟨place, hplace, -, hlt⟩ := exists_place_of_ending hend
    exact .inr ⟨fun hv => hhopeless.not_viable (hv.mono (prefix_all htokens).1),
      e', place, t.span, he', hstage, hspan, hplace, hlt t (by simp [htokens])⟩
  · rw [hend] at hend'
    cases hend'
    exact .inl ⟨hviable, he'⟩
  · rw [hend] at hend'
    cases hend'

/-- The first error is reported. Pools with two nodes for each token never fill, and with a pool
that never fills the error of a refused text has a place such that the tokens before it are the
beginning of an accepted text. An error of the parser stands at a token with which no accepted text
goes on there, the end of the text included, and an error of the lexer where no lexeme starts. If
the lexer finds such a character at all, it is reported exactly if all tokens before it are the
beginning of an accepted text; otherwise an error of the parser is reported that stands before
it. -/
theorem parse_error_earliest (text : String) :
    (∀ capacity : Int, 2 * ((tokenize text).tokens.length : Int) ≤ capacity →
      Unhindered text capacity) ∧
    ∀ capacity, Unhindered text capacity →
      (∀ e, parse text capacity = .error e → ∃ place, e.span = some place ∧
        Viable (tokensBefore text place) ∧
        (e.stage = .parsing ∧ Misplaced text place ∨
          e.stage = .lexing ∧ NoLexemeAt text place)) ∧
      ∀ e, (tokenize text).ending = .error e →
        (parse text capacity = .error e ↔ Viable (tokenize text).tokens) ∧
        (¬Viable (tokenize text).tokens → ∃ e' place place', parse text capacity = .error e' ∧
          e'.stage = .parsing ∧ e'.span = some place' ∧ e.span = some place ∧
          place'.first < place.first) := by
  refine ⟨fun capacity hroom e => not_isNodeLimit_of_parse hroom, fun capacity hfree =>
    ⟨fun e => exists_place_of_parse_error hfree, fun e hend => ?_⟩⟩
  rcases parse_error_of_ending hfree hend with ⟨hviable, he⟩ | ⟨hdead, hearlier⟩
  · exact ⟨⟨fun _ => hviable, fun _ => he⟩, fun hdead => absurd hviable hdead⟩
  · refine ⟨⟨fun he => ?_, fun hviable => absurd hviable hdead⟩, fun _ => hearlier⟩
    obtain ⟨e', _, _, he', hstage, -⟩ := hearlier
    obtain rfl : e = e' := Except.error.inj (he.symm.trans he')
    have hlexing : e.stage = .lexing := Lexer.failsIn_run _ _ e hend
    rw [hstage] at hlexing
    cases hlexing

/-- In `(2 3$` the number behind the first one is reported and not the dollar sign. -/
theorem parse_error_earliest_bracket :
    ∃ e place, parse "(2 3$" maxNodes = .error e ∧ e.span = some place ∧ place.first = 3 ∧
      Viable (tokensBefore "(2 3$" place) ∧ Misplaced "(2 3$" place ∧
      ∃ e', (tokenize "(2 3$").ending = .error e' ∧
        (parse "(2 3$" maxNodes = .error e' ↔ Viable (tokenize "(2 3$").tokens) := by
  have hfree : Unhindered "(2 3$" maxNodes :=
    (parse_error_earliest "(2 3$").1 maxNodes (by decide +kernel)
  obtain ⟨hplace, hlexical⟩ := (parse_error_earliest "(2 3$").2 maxNodes hfree
  have hrefused : ((parse "(2 3$" maxNodes).map fun _ => ()).mapError
      (fun e => (e.stage, e.span.map Span.first)) = .error (.parsing, some 3) := by
    decide +kernel
  have hcharacter : (tokenize "(2 3$").ending.isOk = false := by decide +kernel
  cases he : parse "(2 3$" maxNodes with
  | ok p =>
    rw [he] at hrefused
    cases hrefused
  | error e =>
    cases hend : (tokenize "(2 3$").ending with
    | ok fin =>
      rw [hend] at hcharacter
      cases hcharacter
    | error e' =>
      rw [he] at hrefused
      obtain ⟨hstage, hfirst⟩ := Prod.mk.inj (Except.error.inj hrefused)
      obtain ⟨place, hspan, hviable, ⟨-, hmisplaced⟩ | ⟨hlexing, -⟩⟩ := hplace e he
      · rw [hspan] at hfirst
        exact ⟨e, place, rfl, hspan, Option.some.inj hfirst, hviable, hmisplaced, e', rfl,
          by simpa [he] using (hlexical e' hend).1⟩
      · rw [hstage] at hlexing
        cases hlexing

end Calculator
