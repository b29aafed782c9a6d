import Calculator.Error
import Calculator.FunctionKind

/-!
# Expressions

The tree of an expression. A unary minus is a subtraction from zero with a mark; brackets are nodes
of their own. A tree that was built by hand may lack spans, hold an operation without an operator or
a blank node, and mark any operation as unary; such trees can be looked at but not always printed or
evaluated.
-/

namespace Calculator

inductive Operator where
  | add
  | sub
  | mul
  | div
  | pow
  deriving DecidableEq, Repr

def Operator.sign : Operator → String
  | add => "+"
  | sub => "-"
  | mul => "*"
  | div => "/"
  | pow => "^"

/-- How tightly an operator binds. -/
def Operator.strength : Operator → Nat
  | add | sub => 1
  | mul | div => 2
  | pow => 3

inductive Expr where
  | number (value : Float) (span : Option Span)
  /-- A variable or a constant. -/
  | named (name : String) (span : Option Span)
  | binary (op : Option Operator) (left right : Expr) (unary : Bool) (span : Option Span)
  | call (f : FunctionKind) (argument : Expr) (span : Option Span)
  | factorial (operand : Expr) (span : Option Span)
  /-- An expression in brackets. -/
  | group (inner : Expr) (span : Option Span)
  /-- A node of no kind. -/
  | blank (span : Option Span)

def mergeSpans (a b : Option Span) : Option Span :=
  match a, b with
  | some a, some b => some (a.merge b)
  | a, none => a
  | none, b => b

namespace Expr

def span : Expr → Option Span
  | number _ s | named _ s | binary _ _ _ _ s | call _ _ s | factorial _ s | group _ s
  | blank s => s

def children : Expr → List Expr
  | binary _ left right _ _ => [left, right]
  | call _ argument _ => [argument]
  | factorial operand _ => [operand]
  | group inner _ => [inner]
  | number .. | named .. | blank _ => []

/-- The node and all nodes below it, each before those below it, from left to right. -/
def nodes : Expr → List Expr
  | e@(binary _ left right _ _) => e :: (left.nodes ++ right.nodes)
  | e@(call _ argument _) => e :: argument.nodes
  | e@(factorial operand _) => e :: operand.nodes
  | e@(group inner _) => e :: inner.nodes
  | e => [e]

def size : Expr → Nat
  | binary _ left right _ _ => left.size + right.size + 1
  | call _ argument _ => argument.size + 1
  | factorial operand _ => operand.size + 1
  | group inner _ => inner.size + 1
  | number .. | named .. | blank _ => 1

/-- The negation of an expression: zero minus it, marked as unary. The zero stands at the sign. -/
def negation (operand : Expr) (sign : Option Span) : Expr :=
  binary (some .sub) (number 0.0 sign) operand true (mergeSpans sign operand.span)

/-- The tree written out node by node. Of a unary operation only the operand is written, and an
operation without an operator cannot be. -/
def outline : Expr → Except Fault String
  | number value _ => .ok s!"Number({floatText value})"
  | named name _ => .ok s!"Variable({Text.quote name})"
  | binary op left right unary _ =>
    if unary then right.outline.map fun text => s!"Negate({text})"
    else do
      let sign ← op.elim (.error .missingSign) fun op => .ok (Text.quote op.sign)
      let left ← left.outline
      let right ← right.outline
      return s!"BinaryOp({sign}, left={left}, right={right})"
  | call f argument _ => argument.outline.map fun text => s!"Function({f.name}, {text})"
  | factorial operand _ => operand.outline.map fun text => s!"Factorial({text})"
  | group inner _ => inner.outline.map fun text => s!"Parenthesis({text})"
  | blank _ => .ok "Node"

theorem length_nodes (e : Expr) : e.nodes.length = e.size := by
  induction e with
  | binary op left right unary span ihl ihr => simp [nodes, size, ihl, ihr]
  | call f argument span ih => simp [nodes, size, ih]
  | factorial operand span ih => simp [nodes, size, ih]
  | group inner span ih => simp [nodes, size, ih]
  | number | named | blank => rfl

theorem size_pos (e : Expr) : 0 < e.size := by cases e <;> simp [size]

end Expr

end Calculator
