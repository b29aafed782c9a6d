import Calculator.Evaluation.Operation
import Calculator.Symbols

/-!
# Evaluating expressions

A tree is evaluated from the leaves upwards, left before right. Numbers, variables and the result of
each operation are rounded as the settings ask for. The outcome comes with the operations that were
carried out up to it.
-/

namespace Calculator

/-- What an evaluation depends on. -/
structure Environment where
  symbols : SymbolTable
  settings : ArithmeticSettings
  /-- Every operation is described as a step as soon as it is done. -/
  traced : Bool

/-- The operations of an evaluation, in their order, and its outcome. -/
structure Walk where
  operations : List Operation
  outcome : Except Failure Float

namespace Walk

def leaf (outcome : Except Failure Float) : Walk := ⟨[], outcome⟩

/-- One walk after the other, if the first has a value. -/
def andThen (w : Walk) (next : Float → Walk) : Walk :=
  match w.outcome with
  | .ok v =>
    let rest := next v
    ⟨w.operations ++ rest.operations, rest.outcome⟩
  | .error _ => w

end Walk

/-- The value of an operator before rounding. -/
def Operator.apply (settings : ArithmeticSettings) (op : Operator) (left right : Float)
    (span : Option Span) : Except Failure Float :=
  match op with
  | add => .ok (left + right)
  | sub => .ok (left - right)
  | mul => .ok (left * right)
  | div =>
    if right.abs < epsilon then
      match settings.formatNumber left, settings.formatNumber right with
      | .ok dividend, .ok divisor => failAt (.divisionByZero dividend divisor) span
      | .error f, _ | _, .error f => .error (.fault f)
    else .ok (left / right)
  | pow => power left right span

namespace Environment

/-- Rounds the result of an operation, which has to be finite. -/
def finish (env : Environment) (raw : Float) (name : String) (span : Option Span) :
    Except Failure Float :=
  if raw.isFinite then .ok (env.settings.applyFormat raw) else failAt (.overflow name) span

/-- Checks that an operation can be described, if that is asked for. -/
def noted (env : Environment) (o : Operation) : Walk :=
  if env.traced then
    match o.step env.settings with
    | .ok _ => ⟨[o], .ok o.value⟩
    | .error f => ⟨[o], .error (.fault f)⟩
  else ⟨[o], .ok o.value⟩

/-- Carries out an operation: rounds the raw value and notes the operation. -/
def perform (env : Environment) (raw : Except Failure Float) (name : String) (span : Option Span)
    (operation : Float → Operation) : Walk :=
  match raw with
  | .error f => .leaf (.error f)
  | .ok raw =>
    match env.finish raw name span with
    | .error f => .leaf (.error f)
    | .ok v => env.noted (operation v)

def walk (env : Environment) : Expr → Walk
  | .number v _ => .leaf (.ok (env.settings.applyFormat v))
  | .named name span =>
    .leaf ((env.symbols.resolve name span).map env.settings.applyFormat)
  | .group inner _ => env.walk inner
  | node@(.binary op left right unary span) =>
    (env.walk left).andThen fun l =>
      (env.walk right).andThen fun r =>
        match op with
        | none => .leaf (.error (.fault .unknownOperator))
        | some op =>
          env.perform (op.apply env.settings l r span) (Text.lowercase op.operationName) span
            (.binary node op unary l r)
  | node@(.call f argument span) =>
    (env.walk argument).andThen fun x =>
      env.perform (f.apply x span) f.name span (.call node f x)
  | node@(.factorial operand span) =>
    (env.walk operand).andThen fun x =>
      env.perform (Calculator.factorial x span) "factorial" span (.factorial node x)
  | .blank _ => .leaf (.error (.fault .unknownNode))

def evaluate (env : Environment) (e : Expr) : Except Failure Float := (env.walk e).outcome

end Environment

end Calculator
