import Calculator.FunctionKind
import Calculator.Source

/-!
# Tokens

The words and signs of the expression language.
-/

namespace Calculator

inductive TokenKind where
  | number
  | identifier
  | plus
  | minus
  | star
  | slash
  | caret
  | bang
  | leftParen
  | rightParen
  | comma
  | function (f : FunctionKind)
  | constant
  /-- The end of the input. -/
  | finish
  deriving DecidableEq, Repr

def TokenKind.label : TokenKind → String
  | number => "NUMBER"
  | identifier => "IDENTIFIER"
  | plus => "PLUS"
  | minus => "MINUS"
  | star => "STAR"
  | slash => "SLASH"
  | caret => "CARET"
  | bang => "BANG"
  | leftParen => "LPAREN"
  | rightParen => "RPAREN"
  | comma => "COMMA"
  | function _ => "FUNCTION"
  | constant => "CONSTANT"
  | finish => "END"

structure Token where
  kind : TokenKind
  text : String
  span : Span
  deriving DecidableEq, Repr

namespace Token

def finish (cursor : Cursor) : Token := ⟨.finish, "", .atCursor cursor 1⟩

def description (t : Token) : String :=
  if t.kind = .finish then "end of input" else "'" ++ t.text ++ "'"

end Token

def constantNames : List String := ["pi", "e", "phi", "π", "φ"]

def wordKind (word : String) : TokenKind :=
  match FunctionKind.ofName? word with
  | some f => .function f
  | none => if word ∈ constantNames then .constant else .identifier

/-- The kind of the token that a single character forms. -/
def signKind? : Char → Option TokenKind
  | '+' => some .plus
  | '-' => some .minus
  | '*' => some .star
  | '/' => some .slash
  | '^' => some .caret
  | '!' => some .bang
  | '(' => some .leftParen
  | ')' => some .rightParen
  | ',' => some .comma
  | _ => none

end Calculator
