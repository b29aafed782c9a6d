import Calculator.Expr
import Calculator.Expr.Pool
import Calculator.Number.Reading
import Calculator.Token.Lexer

/-!
# Parsing expressions

The grammar is

    expression := term (('+' | '-') term)*
    term       := factor (('*' | '/') factor)*
    factor     := '-' factor | postfix ('^' factor)?
    postfix    := primary '!'*
    primary    := NUMBER | CONSTANT | IDENTIFIER
                | FUNCTION '(' expression ')'
                | '(' expression ')'

so that `^` groups to the right, and a unary minus binds less tightly than `^` and `!` but more
tightly than the other operators.

The parser reads one token after the other and keeps the constructs that are still open on a stack.
Each open construct reserves the nodes that will be built when it is complete. Whether there is room
for a construct, or for a node that is complete by itself, is looked at when the token behind it has
been read: what is wrong with that token as a lexeme is reported first.
-/

namespace Calculator

/-- A construct that is still open. -/
inductive Frame where
  /-- An addition or subtraction without its right operand. -/
  | sum (op : Operator) (left : Expr)
  /-- A multiplication or division without its right operand. -/
  | product (op : Operator) (left : Expr)
  /-- A unary minus without its operand. -/
  | negation (minus : Token)
  /-- A power without its exponent. -/
  | power (base : Expr)
  /-- An opening bracket. -/
  | group (opening : Token)
  /-- A function name and the opening bracket behind it. -/
  | call (f : FunctionKind) (name opening : Token)

namespace Frame

def reserved : Frame → Nat
  | sum .. | product .. => 0
  | negation _ => 2
  | power _ | group _ | call .. => 1

/-- How tightly a construct holds its right operand; brackets wait for their own end. -/
def strength : Frame → Nat
  | group _ | call .. => 0
  | sum .. => 1
  | product .. => 2
  | negation _ | power _ => 3

end Frame

/-- What is still to be checked for the token that was read last. -/
inductive Due where
  | nothing
  /-- The token completed a node. -/
  | node (span : Option Span)
  /-- The token opened a construct. -/
  | room (span : Span)

/-- What has to come next. -/
inductive Phase where
  /-- An operand. -/
  | operand
  /-- The opening bracket behind a function name. -/
  | arguments (f : FunctionKind) (name : Token)
  /-- An operator or the end of a construct, behind a complete operand. -/
  | operator (tree : Expr)

/-- The state of a parse. -/
structure ParserState where
  pool : NodePool
  stack : List Frame
  phase : Phase
  due : Due

/-- An expression, and the number of nodes that were taken for it. -/
structure Parsed where
  tree : Expr
  count : Nat

namespace ParserState

def initial (capacity : Int) : ParserState := ⟨.fresh capacity, [], .operand, .nothing⟩

def reserved : List Frame → Nat
  | [] => 0
  | frame :: stack => frame.reserved + reserved stack

def settle (s : ParserState) : Except MathError ParserState :=
  match s.due with
  | .nothing => .ok s
  | .node span => do return { s with pool := ← s.pool.take span, due := .nothing }
  | .room span => do
    s.pool.reserve (reserved s.stack) (some span)
    return { s with due := .nothing }

def opening (s : ParserState) (frame : Frame) (span : Span) : ParserState :=
  { s with stack := frame :: s.stack, phase := .operand, due := .room span }

/-- Has the given operand, whose last node is still to be taken. -/
def completed (s : ParserState) (stack : List Frame) (tree : Expr) : ParserState :=
  { s with stack := stack, phase := .operator tree, due := .node tree.span }

/-- Builds the node of a construct that ends behind `operand`. Brackets do not end so. -/
def build (pool : NodePool) (operand : Expr) : Frame → Except MathError (Expr × NodePool)
  | .sum op left | .product op left => binary op left
  | .power base => binary .pow base
  | .negation minus => do
    let pool ← pool.take (some minus.span)
    let tree := Expr.negation operand (some minus.span)
    return (tree, ← pool.take tree.span)
  | .group _ | .call .. => .ok (operand, pool)
where
  binary (op : Operator) (left : Expr) : Except MathError (Expr × NodePool) := do
    let tree := Expr.binary (some op) left operand false (mergeSpans left.span operand.span)
    return (tree, ← pool.take tree.span)

/-- Builds all constructs on top of the stack that hold their operand at least as tightly as
`strength`. -/
def unwind (strength : Nat) :
    List Frame → Expr → NodePool → Except MathError (List Frame × Expr × NodePool)
  | frame :: stack, operand, pool =>
    if strength ≤ frame.strength then do
      let (tree, pool) ← build pool operand frame
      unwind strength stack tree pool
    else .ok (frame :: stack, operand, pool)
  | [], operand, pool => .ok ([], operand, pool)

/-- Reads a token where an operand has to start. -/
def readOperand (s : ParserState) (t : Token) : Except MathError ParserState :=
  match t.kind with
  | .number => .ok (s.completed s.stack (.number (numeralValue t.text) (some t.span)))
  | .constant | .identifier => .ok (s.completed s.stack (.named t.text (some t.span)))
  | .function f => .ok { s with phase := .arguments f t }
  | .leftParen => .ok (s.opening (.group t) t.span)
  | .minus => .ok (s.opening (.negation t) t.span)
  | _ => .error (.of (.expectedOperand t) (some t.span))

def readArguments (s : ParserState) (f : FunctionKind) (name t : Token) :
    Except MathError ParserState :=
  if t.kind = .leftParen then .ok (s.opening (.call f name t) name.span)
  else .error (.of (.expectedArgList name t) (some t.span))

/-- Reads an operator whose left operand is `tree`. -/
def readInfix (s : ParserState) (tree : Expr) (strength : Nat) (frame : Expr → Frame) :
    Except MathError ParserState := do
  let (stack, left, pool) ← unwind strength s.stack tree s.pool
  return { s with pool := pool, stack := frame left :: stack, phase := .operand }

/-- Reads a token that ends the innermost brackets, or finds that it does not. -/
def readClosing (s : ParserState) (tree : Expr) (t : Token) : Except MathError ParserState := do
  let (stack, inner, pool) ← unwind 1 s.stack tree s.pool
  let s := { s with pool := pool }
  match stack with
  | .group opening :: rest =>
    if t.kind = .rightParen then
      return s.completed rest (.group inner (some (opening.span.merge t.span)))
    else .error (.of (.unmatchedParen opening t) (some t.span))
  | .call f name opening :: rest =>
    if t.kind = .rightParen then
      return s.completed rest (.call f inner (some (name.span.merge t.span)))
    else .error (.of (.unmatchedParen opening t) (some t.span))
  | _ => .error (.of (.trailingInput t) (some t.span))

def readOperator (s : ParserState) (tree : Expr) (t : Token) : Except MathError ParserState :=
  match t.kind with
  | .bang => .ok (s.completed s.stack (.factorial tree (mergeSpans tree.span (some t.span))))
  | .caret => .ok (s.opening (.power tree) t.span)
  | .star => s.readInfix tree 2 (.product .mul)
  | .slash => s.readInfix tree 2 (.product .div)
  | .plus => s.readInfix tree 1 (.sum .add)
  | .minus => s.readInfix tree 1 (.sum .sub)
  | _ => s.readClosing tree t

def step (s : ParserState) (t : Token) : Except MathError ParserState := do
  let s ← s.settle
  match s.phase with
  | .operand => s.readOperand t
  | .arguments f name => s.readArguments f name t
  | .operator tree => s.readOperator tree t

/-- Reads the token at the end of the text. -/
def conclude (s : ParserState) (t : Token) : Except MathError Parsed := do
  let s ← s.settle
  match s.phase with
  | .operand => .error (.of (.expectedOperand t) (some t.span))
  | .arguments _ name => .error (.of (.expectedArgList name t) (some t.span))
  | .operator tree =>
    let (stack, tree, pool) ← unwind 1 s.stack tree s.pool
    match stack with
    | .group opening :: _ | .call _ _ opening :: _ =>
      .error (.of (.unmatchedParen opening t) (some t.span))
    | _ => return ⟨tree, pool.count⟩

def run (s : ParserState) (ending : Except MathError Token) : List Token → Except MathError Parsed
  | [] => do s.conclude (← ending)
  | t :: ts => do (← s.step t).run ending ts

/-- The tokens that are read until the parse ends or fails. -/
def read (s : ParserState) (ending : Except MathError Token) : List Token → List Token
  | [] => match ending with
    | .ok t => [t]
    | .error _ => []
  | t :: ts => t :: match s.step t with
    | .ok s => s.read ending ts
    | .error _ => []

end ParserState

def TokenList.parse (tokens : TokenList) (capacity : Int) : Except MathError Parsed :=
  (ParserState.initial capacity).run tokens.ending tokens.tokens

/-- Parses a text; the first problem is the error. -/
def parse (text : String) (capacity : Int) : Except MathError Parsed :=
  (tokenize text).parse capacity

/-- The tokens of a text that a parse reads. -/
def tokensRead (text : String) (capacity : Int) : List Token :=
  let list := tokenize text
  (ParserState.initial capacity).read list.ending list.tokens

end Calculator
