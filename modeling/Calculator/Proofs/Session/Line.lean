import Calculator.Presentation
import Calculator.Proofs.Evaluation.Node
import Calculator.Proofs.Grammar.Parsing
import Calculator.Proofs.Lexing.Munch
import Calculator.Proofs.Session.Basic

/-!
# Lines that are entered

A line is an assignment or an expression as a whole. No lexeme holds the sign between the name and
the expression of an assignment, so a line with such a sign that is no assignment is refused.
-/

namespace Calculator

namespace Lexer

variable {cursor : Cursor} {cs lexeme rest : List Char} {kind : TokenKind} {ts : List Token}

theorem IsRead.isLexeme (h : IsRead lexeme kind rest) : IsLexeme lexeme := by
  have hadmits := h.admits
  cases kind with
  | number => exact .inl hadmits
  | identifier | constant | function f => exact .inr (.inl hadmits.1)
  | finish => exact hadmits.elim
  | plus | minus | star | slash | caret | bang | leftParen | rightParen | comma =>
    obtain ⟨c, rfl, hsign⟩ := hadmits
    exact .inr (.inr ⟨c, _, rfl, hsign⟩)

theorem Scans.isSeparator_or_mem (h : Scans cursor cs ts rest) {c : Char} (hc : c ∈ cs) :
    isSeparator c = true ∨ ∃ lexeme, IsLexeme lexeme ∧ c ∈ lexeme := by
  induction h with
  | nil => cases hc
  | @cons _ blanks lexeme _ _ _ _ hb hl _ ih =>
    rcases List.mem_append.1 hc with hblank | hc
    · exact .inl (hb c hblank)
    · rcases List.mem_append.1 hc with hmem | hc
      · exact .inr ⟨lexeme, hl.isLexeme, hmem⟩
      · exact ih hc

end Lexer

theorem equals_notMem_of_isLexeme {cs : List Char} (h : IsLexeme cs) : '=' ∉ cs := by
  intro hmem
  rcases h with hnumber | ⟨c, tail, rfl, hstart, hpart⟩ | ⟨c, kind, rfl, hsign⟩
  · exact absurd (hnumber.2.2 '=' hmem) (by decide)
  · rcases List.mem_cons.1 hmem with rfl | hmem
    · exact absurd hstart (by decide +kernel)
    · exact absurd (hpart '=' hmem) (by decide +kernel)
  · obtain rfl := List.mem_singleton.1 hmem
    cases hsign

/-- A text with the sign of an assignment is no expression. -/
theorem equals_notMem_of_parse {text : String} {capacity : Int} {p : Parsed}
    (h : parse text capacity = .ok p) : '=' ∉ text.toList := by
  obtain ⟨⟨fin, hfin⟩, -⟩ := derives_of_parse h
  obtain ⟨front, blanks, rest, htext, hscan, hb, ⟨rfl, -⟩ | ⟨c, cs, -, -, -, herror⟩⟩ :=
    exists_scans_ending text
  · intro hmem
    have hblank : ¬isSeparator '=' = true := by decide
    rw [htext, List.append_nil, List.mem_append] at hmem
    rcases hmem with hmem | hmem
    · rcases hscan.isSeparator_or_mem hmem with hsep | ⟨lexeme, hl, hmem⟩
      · exact hblank hsep
      · exact equals_notMem_of_isLexeme hl hmem
    · exact hblank (hb '=' hmem)
  · rw [hfin] at herror
    cases herror

theorem splitAssignment_cases (line : String) : splitAssignment line = (none, line) ∨
    ∃ name expression, splitAssignment line = (some name, expression) := by
  unfold splitAssignment
  dsimp only
  split
  · exact .inl rfl
  · split
    · exact .inl rfl
    · exact .inr ⟨_, _, rfl⟩

namespace Session

variable {s s' : Session} {line : String} {trace : Bool} {entry : Entry}

theorem exists_parse_of_evaluate {text : String} {r : CalculationResult}
    (h : (s.evaluate text trace).value = .ok r) : ∃ p, (s.parse text).value = .ok p := by
  cases hp : (s.parse text).value with
  | ok p => exact ⟨p, rfl⟩
  | error e =>
    rw [value_evaluate_of_error hp] at h
    cases h

theorem value_enter (s : Session) (line : String) (trace : Bool) :
    (s.enter line trace).value = do
      let r ← (s.evaluate (splitAssignment line).2 trace).value
      let s' ← (splitAssignment line).1.elim (.ok s) fun name =>
        (s.setVariable (.text name) (.float r.value)).value
      return (⟨(splitAssignment line).1, r⟩, s') := by
  unfold enter
  rcases splitAssignment line with ⟨_ | name, expression⟩
  · dsimp only
    cases hr : (s.evaluate expression trace).value <;> rfl
  · dsimp only
    cases hr : (s.evaluate expression trace).value with
    | error f => rfl
    | ok r =>
      change Except.map _ (s.setVariable (.text name) (.float r.value)).value =
        Except.bind (s.setVariable (.text name) (.float r.value)).value _
      cases (s.setVariable (.text name) (.float r.value)).value <;> rfl

/-- A line that is accepted is an expression without the sign of an assignment, or an assignment of
the result of its expression. -/
theorem enter_cases (h : (s.enter line trace).value = .ok (entry, s')) :
    (splitAssignment line = (none, line) ∧ (s.evaluate line trace).value = .ok entry.result ∧
      '=' ∉ line.toList ∧ s' = s) ∨
    ∃ name expression, splitAssignment line = (some name, expression) ∧
      (s.evaluate expression trace).value = .ok entry.result ∧
      (s.setVariable (.text name) (.float entry.result.value)).value = .ok s' := by
  obtain ⟨r, hr, hrest⟩ := bind_eq_ok_iff.1 (value_enter s line trace ▸ h)
  obtain ⟨s'', hset, heq⟩ := bind_eq_ok_iff.1 hrest
  cases heq
  rcases splitAssignment_cases line with hsplit | ⟨name, expression, hsplit⟩
  · rw [hsplit] at hr hset
    cases hset
    obtain ⟨p, hp⟩ := exists_parse_of_evaluate hr
    rw [value_parse] at hp
    exact .inl ⟨hsplit, hr, equals_notMem_of_parse hp, rfl⟩
  · rw [hsplit] at hr hset
    exact .inr ⟨name, expression, hsplit, hr, hset⟩

end Session

end Calculator
