import Calculator.Proofs.Lexing.Numerals
import Calculator.Proofs.Lexing.Places

/-!
# The longest lexemes, and nothing between them

Every token of a text is what its span marks, and the longest lexeme that starts there. Between the
tokens there are blanks only, up to the end of the text or to the first character at which no lexeme
starts.
-/

namespace Calculator

def TokenKind.Admits (kind : TokenKind) (cs : List Char) : Prop :=
  match kind with
  | .number => IsNumber cs
  | .identifier | .constant | .function _ => IsWordText cs ∧ wordKind (String.ofList cs) = kind
  | .finish => False
  | _ => ∃ c, cs = [c] ∧ signKind? c = some kind

/-- The token is the part of the text that its span marks, and no longer lexeme starts there. -/
structure Token.StandsIn (t : Token) (text : String) : Prop where
  place : t.span.LiesIn text
  verbatim : t.text = t.span.cut text
  admitted : t.kind.Admits t.text.toList
  longest : ∀ lexeme, lexeme <+: text.toList.drop t.span.first.toNat → IsLexeme lexeme →
    lexeme.length ≤ t.text.length

/-- The tokens stand one behind the other, and up to an offset there are blanks only between
them. -/
structure ReadUpTo (text : String) (stop : Nat) (ts : List Token) : Prop where
  standing : ∀ t ∈ ts, t.StandsIn text
  inOrder : InOrder ts
  before : ∀ t ∈ ts, t.span.last < stop
  blank : ∀ i c, i < stop → text.toList[i]? = some c →
    (∀ t ∈ ts, ¬(t.span.first ≤ i ∧ (i : Int) ≤ t.span.last)) → isSeparator c = true

/-- No lexeme starts with the character: it is a point without a digit behind it, or it is no first
character of a numeral, a word or a sign. -/
def StartsNothing (c : Char) (cs : List Char) : Prop :=
  c = '.' ∧ (∀ d ∈ cs.head?, d.isDigit = false) ∨
    c.isDigit = false ∧ c ≠ '.' ∧ isWordStart c = false ∧ signKind? c = none

theorem isNumber_of_digits {cs : List Char} (h : AllDigits cs) (hne : cs ≠ []) : IsNumber cs := by
  obtain ⟨c, tail, rfl⟩ := List.exists_cons_of_ne_nil hne
  refine ⟨⟨c, by simp, h c (by simp)⟩, ?_, fun d hd => .inl (h d hd)⟩
  rw [List.count_eq_zero_of_not_mem fun hpoint => absurd (h '.' hpoint) (by decide)]
  exact Nat.zero_le 1

theorem isNumber_of_point {whole fraction : List Char} (hw : AllDigits whole)
    (hf : AllDigits fraction) (hne : whole ++ '.' :: fraction ≠ ['.']) :
    IsNumber (whole ++ '.' :: fraction) := by
  have hpoint {cs : List Char} (h : AllDigits cs) : cs.count '.' = 0 :=
    List.count_eq_zero_of_not_mem fun hmem => absurd (h '.' hmem) (by decide)
  refine ⟨?_, ?_, fun d hd => ?_⟩
  · cases whole with
    | cons c whole => exact ⟨c, by simp, hw c (by simp)⟩
    | nil =>
      cases fraction with
      | nil => exact absurd rfl hne
      | cons c fraction => exact ⟨c, by simp, hf c (by simp)⟩
  · rw [List.count_append, List.count_cons_self, hpoint hw, hpoint hf]
  · rcases List.mem_append.1 hd with hd | hd
    · exact .inl (hw d hd)
    · rcases List.mem_cons.1 hd with rfl | hd
      · exact .inr rfl
      · exact .inl (hf d hd)

theorem exists_next_of_prefix {cs rest longer : List Char} (hp : longer <+: cs ++ rest)
    (hlt : cs.length < longer.length) : ∃ d ∈ rest.head?, cs ++ [d] <+: longer := by
  obtain ⟨tail, rfl⟩ := List.prefix_of_prefix_length_le (List.prefix_append cs rest) hp hlt.le
  rw [List.prefix_append_right_inj] at hp
  cases tail with
  | nil => simp at hlt
  | cons d tail =>
    obtain ⟨behind, rfl⟩ := hp
    exact ⟨d, rfl, tail, by simp⟩

theorem IsLexeme.of_head {c : Char} {cs : List Char} (h : IsLexeme (c :: cs)) :
    (c.isDigit || c = '.') = true ∧ IsNumber (c :: cs) ∨
    isWordStart c = true ∧ IsWordText (c :: cs) ∨
    (∃ kind, signKind? c = some kind) ∧ cs = [] := by
  rcases h with hnumber | hword | ⟨d, kind, heq, hsign⟩
  · exact .inl ⟨by simpa using hnumber.2.2 c (by simp), hnumber⟩
  · obtain ⟨d, tail, heq, hstart, -⟩ := id hword
    obtain ⟨rfl, rfl⟩ := List.cons.inj heq
    exact .inr (.inl ⟨hstart, hword⟩)
  · obtain ⟨rfl, rfl⟩ := List.cons.inj heq
    exact .inr (.inr ⟨⟨kind, hsign⟩, rfl⟩)

namespace Lexer

variable {cursor : Cursor} {front blanks cs lexeme rest : List Char} {kind : TokenKind}
  {ts : List Token} {text : String}

theorem IsRead.admits (h : IsRead lexeme kind rest) : kind.Admits lexeme := by
  obtain ⟨c, cs, rfl, -, hl⟩ := id h
  rcases lexeme?_cases hl with ⟨-, rfl, -, hpoint⟩ | ⟨-, hstart, hword, htake, -⟩ |
    ⟨-, -, hsign, hlexeme, -⟩
  · rcases h.digits with ⟨hdigits, -⟩ | ⟨whole, fraction, heq, hw, hf, -⟩
    · exact isNumber_of_digits hdigits (List.cons_ne_nil c cs)
    · rw [heq] at hpoint ⊢
      exact isNumber_of_point hw hf hpoint
  · have hpart : ∀ d ∈ c :: cs, isWordPart d = true := by
      rw [htake]
      exact forall_mem_takeWhile isWordPart _
    have htext : IsWordText (c :: cs) :=
      ⟨c, cs, rfl, hstart, fun d hd => hpart d (List.mem_cons_of_mem c hd)⟩
    have hkind (kind' : TokenKind) (h : wordKind (String.ofList (c :: cs)) = kind') :
        kind'.Admits (c :: cs) := by
      cases kind' with
      | identifier | constant | function f => exact ⟨htext, h⟩
      | number | plus | minus | star | slash | caret | bang | leftParen | rightParen | comma
      | finish => exact absurd h (wordKind_ne (by nofun) (by nofun) (by nofun) _)
    exact hkind kind hword.symm
  · rw [hlexeme]
    unfold signKind? at hsign
    split at hsign <;> cases hsign <;> exact ⟨_, rfl, rfl⟩

/-- No lexeme is longer than the one that is read. -/
theorem IsRead.longest (h : IsRead lexeme kind rest) {longer : List Char}
    (hp : longer <+: lexeme ++ rest) (hl : IsLexeme longer) : longer.length ≤ lexeme.length := by
  by_contra hlt
  obtain ⟨d, hd, tail, rfl⟩ := exists_next_of_prefix hp (Nat.lt_of_not_le hlt)
  obtain ⟨c, cs, rfl, -, hread⟩ := id h
  have hclass := IsLexeme.of_head hl
  rcases lexeme?_cases hread with ⟨hc, rfl, -⟩ | ⟨hc, hstart, -, -, hdrop⟩ | ⟨hc, hstart, -⟩
  · rcases hclass with ⟨-, -, hcount, hchars⟩ | ⟨hstart, -⟩ | ⟨-, hnil⟩
    · have hnext := hchars d (by simp)
      rcases h.digits with ⟨-, hstop⟩ | ⟨whole, fraction, heq, -, -, hstop⟩
      · obtain ⟨hdigit, hpoint⟩ := hstop d hd
        simp [hdigit, hpoint] at hnext
      · -- the only way on is a second point
        obtain rfl : d = '.' := by simpa [hstop d hd] using hnext
        change ((c :: cs) ++ ['.'] ++ tail).count '.' ≤ 1 at hcount
        rw [heq] at hcount
        simp only [List.count_append, List.count_cons_self] at hcount
        omega
    · obtain ⟨hdigit, hpoint⟩ := not_numeral_of_isWordStart hstart
      simp [hdigit, hpoint] at hc
    · simp at hnil
  · rcases hclass with ⟨hc', -⟩ | ⟨-, e, word, heq, -, hpart⟩ | ⟨-, hnil⟩
    · rw [hc] at hc'
      cases hc'
    · obtain ⟨-, rfl⟩ := List.cons.inj heq
      have hstop := head?_dropWhile isWordPart _ d (hdrop ▸ hd)
      rw [hpart d (by simp)] at hstop
      cases hstop
    · simp at hnil
  · rcases hclass with ⟨hc', -⟩ | ⟨hstart', -⟩ | ⟨-, hnil⟩
    · rw [hc] at hc'
      cases hc'
    · rw [hstart] at hstart'
      cases hstart'
    · simp at hnil

theorem startsNothing_of_lexeme? {c : Char} (h : lexeme? c cs = none) : StartsNothing c cs := by
  simp only [lexeme?] at h
  split at h
  · split at h
    · next hpoint =>
      rcases exists_digits (c :: cs) with
        ⟨whole, after, heq, hw, hstop⟩ | ⟨whole, fraction, after, heq, hw, hf, hstop⟩
      · rw [heq, splitNumeral_digits hw hstop] at hpoint
        have hdigit := hw '.' (by simp [show whole = ['.'] from hpoint])
        exact absurd hdigit (by decide)
      · rw [heq, splitNumeral_point hw hf hstop] at hpoint
        obtain ⟨rfl, rfl⟩ : whole = [] ∧ fraction = [] := by
          simpa [List.append_eq_cons_iff] using hpoint
        obtain ⟨rfl, rfl⟩ := List.cons.inj heq
        exact .inl ⟨rfl, hstop⟩
    · cases h
  · next hc =>
    split at h
    · cases h
    · next hstart =>
      have hdigit : c.isDigit = false := Bool.eq_false_iff.2 fun hd => hc (by simp [hd])
      have hpoint : c ≠ '.' := fun hp => hc (by simp [hp])
      exact .inr ⟨hdigit, hpoint, Bool.eq_false_iff.2 hstart, Option.map_eq_none_iff.1 h⟩

theorem Scans.blank (h : Scans cursor cs ts rest) {i : Nat} {c : Char} (hc : cs[i]? = some c)
    (hfree : ∀ t ∈ ts,
      ¬(t.span.first ≤ cursor.offset + i ∧ (cursor.offset + i : Int) ≤ t.span.last)) :
    isSeparator c = true := by
  induction h generalizing i with
  | nil => cases hc
  | @cons cursor blanks lexeme cs rest kind ts hb hl _ ih =>
    have hpos := List.length_pos_iff.2 hl.ne_nil
    by_cases hblank : i < blanks.length
    · rw [List.getElem?_append_left hblank] at hc
      exact hb c (List.mem_of_getElem? hc)
    · rw [List.getElem?_append_right (by omega)] at hc
      have hhead := hfree _ List.mem_cons_self
      simp only [Span.atCursor, Cursor.offset_pastAll] at hhead
      rw [List.getElem?_append_right (by omega)] at hc
      refine ih hc fun t ht => ?_
      have htail := hfree t (List.mem_cons_of_mem _ ht)
      simp only [Cursor.offset_pastAll, List.length_append]
      omega

theorem Scans.standsIn (h : Scans .start front ts rest) (htext : text.toList = front ++ rest) :
    ∀ t ∈ ts, t.StandsIn text := by
  intro t ht
  obtain ⟨us, vs, rfl⟩ := List.append_of_mem ht
  obtain ⟨before, back, rfl, -, hback⟩ := h.split
  cases hback with
  | @cons _ blanks lexeme cs _ kind _ hb hl _ =>
    have hplace : text.toList = (before ++ blanks) ++ (lexeme ++ (cs ++ rest)) := by simp [htext]
    rw [← Cursor.pastAll_append]
    refine ⟨Span.liesIn_atCursor hplace hl.ne_nil, (Span.cut_atCursor hplace hl.ne_nil).symm, ?_,
      fun longer hp hlonger => ?_⟩
    · rw [String.toList_ofList]
      exact hl.admits
    · have hdrop : text.toList.drop (before ++ blanks).length = lexeme ++ (cs ++ rest) := by
        rw [hplace, List.drop_left]
      simp only [Span.atCursor, Cursor.pastAll_start, Int.toNat_natCast, hdrop] at hp
      rw [String.length_ofList]
      exact hl.longest hp hlonger

theorem Scans.readUpTo (h : Scans .start front ts (blanks ++ rest))
    (htext : text.toList = front ++ (blanks ++ rest)) (hb : ∀ c ∈ blanks, isSeparator c = true) :
    ReadUpTo text (front ++ blanks).length ts := by
  refine ⟨h.standsIn htext, h.inOrder, fun t ht => ?_, fun i c hi hc hfree => ?_⟩
  · have hbounds := h.bounds t ht
    simp only [Cursor.start, List.length_append] at hbounds ⊢
    omega
  · by_cases hfront : i < front.length
    · rw [htext, List.getElem?_append_left hfront] at hc
      exact h.blank hc (by simpa [Cursor.start] using hfree)
    · rw [htext, List.getElem?_append_right (by omega)] at hc
      rw [List.length_append] at hi
      rw [List.getElem?_append_left (by omega)] at hc
      exact hb c (List.mem_of_getElem? hc)

end Lexer

/-- The span of the one character at an offset of a text. -/
def placeAt (text : String) (offset : Nat) : Span :=
  ⟨offset, offset, lineAt text offset, columnAt text offset⟩

theorem atCursor_eq_placeAt {text : String} {front rest : List Char}
    (htext : text.toList = front ++ rest) :
    Span.atCursor (Cursor.start.pastAll front) 1 = placeAt text front.length := by
  have hfront : text.toList.take front.length = front := by rw [htext, List.take_left]
  rw [Cursor.pastAll_start, placeAt, lineAt, columnAt, hfront]
  rfl

/-- Tokens are the longest lexemes, and nothing is lost. Every token is what its span marks in the
text, a lexeme of its kind and the longest one at its place; the tokens stand one behind the other
with blanks between them. They end with the token for the end of the text, which stands there, or
with an error at the first character behind them that is no blank, where no lexeme starts. -/
theorem tokenize_longest (text : String) :
    ∃ stop, ReadUpTo text stop (tokenize text).tokens ∧
      (stop = text.length ∧ (tokenize text).ending = .ok ⟨.finish, "", placeAt text stop⟩ ∨
        ∃ c cs, text.toList.drop stop = c :: cs ∧ isSeparator c = false ∧ StartsNothing c cs ∧
          (∀ lexeme, lexeme <+: c :: cs → ¬IsLexeme lexeme) ∧
          (tokenize text).ending =
            .error (.of (.unexpectedCharacter c) (some (placeAt text stop)))) := by
  obtain ⟨front, blanks, rest, htext, hscan, hb, hending⟩ := exists_scans_ending text
  have hfront : text.toList = (front ++ blanks) ++ rest := by rw [htext, List.append_assoc]
  refine ⟨(front ++ blanks).length, hscan.readUpTo htext hb, ?_⟩
  rw [← atCursor_eq_placeAt hfront]
  rcases hending with ⟨rfl, hfinish⟩ | ⟨c, cs, rfl, hc, hl, herror⟩
  · refine .inl ⟨?_, hfinish⟩
    rw [← String.length_toList, hfront, List.append_nil]
  · refine .inr ⟨c, cs, ?_, hc, Lexer.startsNothing_of_lexeme? hl, fun lexeme hp => ?_, herror⟩
    · rw [hfront, List.drop_left]
    · exact Lexer.not_isLexeme_of_lexeme? hl hp

end Calculator
