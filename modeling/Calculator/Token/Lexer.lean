import Calculator.Error
import Calculator.Text.Numeric

/-!
# Reading tokens

A token is the longest lexeme at the front of the text that is left, after blanks are skipped. A
numeral consists of digits with at most one point; a word starts with a letter or an underscore and
goes on with letters, digits and underscores. `tokenize` reads a whole text: the tokens up to its
end or up to the first character at which no lexeme starts.
-/

namespace Calculator

def isSeparator (c : Char) : Bool := c = ' ' || c = '\t' || c = '\r' || c = '\n'

def isWordStart (c : Char) : Bool := Text.isLetter c || c = '_'

def isWordPart (c : Char) : Bool := Text.isLetterOrDigit c || c = '_'

namespace Lexer

/-- The longest front part with digits and at most one point, and the rest. -/
def splitNumeral (cs : List Char) : List Char × List Char :=
  match cs.dropWhile Char.isDigit with
  | '.' :: rest =>
    (cs.takeWhile Char.isDigit ++ '.' :: rest.takeWhile Char.isDigit, rest.dropWhile Char.isDigit)
  | rest => (cs.takeWhile Char.isDigit, rest)

/-- The lexeme that starts with `c`: its kind, its characters and what follows it. -/
def lexeme? (c : Char) (cs : List Char) : Option (TokenKind × List Char × List Char) :=
  if c.isDigit || c = '.' then
    let (numeral, rest) := splitNumeral (c :: cs)
    if numeral = ['.'] then none else some (.number, numeral, rest)
  else if isWordStart c then
    let word := (c :: cs).takeWhile isWordPart
    some (wordKind (String.ofList word), word, (c :: cs).dropWhile isWordPart)
  else (signKind? c).map fun kind => (kind, [c], cs)

/-- The next token, the cursor behind it and the text behind it. -/
def next (cs : List Char) (cursor : Cursor) : Except MathError (Token × Cursor × List Char) :=
  let start := cursor.pastAll (cs.takeWhile isSeparator)
  match cs.dropWhile isSeparator with
  | [] => .ok (.finish start, start, [])
  | c :: cs =>
    match lexeme? c cs with
    | none => .error (.of (.unexpectedCharacter c) (some (.atCursor start 1)))
    | some (kind, lexeme, rest) =>
      .ok (⟨kind, String.ofList lexeme, .atCursor start lexeme.length⟩, start.pastAll lexeme, rest)

theorem splitNumeral_append (cs : List Char) :
    (splitNumeral cs).1 ++ (splitNumeral cs).2 = cs := by
  unfold splitNumeral
  split
  · next rest h =>
    calc _ = cs.takeWhile Char.isDigit ++ '.' :: rest := by simp
      _ = cs := by rw [← h, List.takeWhile_append_dropWhile]
  · exact List.takeWhile_append_dropWhile

/-- A lexeme is a front part of the text, and nothing is lost behind it. -/
theorem lexeme?_append {c : Char} {cs lexeme rest : List Char} {kind : TokenKind}
    (h : lexeme? c cs = some (kind, lexeme, rest)) : lexeme ++ rest = c :: cs := by
  unfold lexeme? at h
  split at h
  · have := splitNumeral_append (c :: cs)
    grind
  · split at h
    · obtain ⟨-, rfl, rfl⟩ := by simpa using h
      exact List.takeWhile_append_dropWhile
    · grind [Option.map_eq_some_iff]

theorem isWordPart_of_isWordStart {c : Char} (h : isWordStart c = true) : isWordPart c = true := by
  simp only [isWordStart, isWordPart, Text.isLetterOrDigit, Bool.or_eq_true] at *
  exact h.imp_left Or.inl

theorem lexeme?_ne_nil {c : Char} {cs lexeme rest : List Char} {kind : TokenKind}
    (h : lexeme? c cs = some (kind, lexeme, rest)) : lexeme ≠ [] := by
  unfold lexeme? at h
  split at h
  · next hc =>
    have hne : (splitNumeral (c :: cs)).1 ≠ [] := by
      unfold splitNumeral
      by_cases hd : c.isDigit
      · split <;> simp [hd]
      · have hp : c = '.' := by simpa [hd] using hc
        simp [hp]
    grind
  · split at h
    · next hc =>
      have := isWordPart_of_isWordStart hc
      grind [List.takeWhile_cons]
    · grind [Option.map_eq_some_iff]

theorem length_lt_of_next {cs rest : List Char} {cursor after : Cursor} {t : Token}
    (h : next cs cursor = .ok (t, after, rest)) (ht : t.kind ≠ .finish) :
    rest.length < cs.length := by
  unfold next at h
  have hle : (cs.dropWhile isSeparator).length ≤ cs.length :=
    (List.dropWhile_suffix isSeparator).length_le
  split at h
  · simp only [Except.ok.injEq, Prod.mk.injEq] at h
    exact absurd (h.1 ▸ rfl) ht
  · next c tail heq =>
    rw [heq] at hle
    split at h
    · simp at h
    · next kind lexeme rest' hl =>
      have happ := congrArg List.length (lexeme?_append hl)
      have hpos := List.length_pos_iff.2 (lexeme?_ne_nil hl)
      simp only [Except.ok.injEq, Prod.mk.injEq] at h
      obtain ⟨-, -, rfl⟩ := h
      simp only [List.length_append, List.length_cons] at happ hle
      omega

end Lexer

/-- The tokens of a text, and how they end: with the token for the end of the text, or with the
error of the first place where no lexeme starts. -/
structure TokenList where
  tokens : List Token
  ending : Except MathError Token

def Lexer.run (cs : List Char) (cursor : Cursor) : TokenList :=
  match h : next cs cursor with
  | .error e => ⟨[], .error e⟩
  | .ok (t, after, rest) =>
    if ht : t.kind = .finish then ⟨[], .ok t⟩
    else
      have := length_lt_of_next h ht
      let more := run rest after
      ⟨t :: more.tokens, more.ending⟩
termination_by cs.length

def tokenize (text : String) : TokenList := Lexer.run text.toList .start

end Calculator
