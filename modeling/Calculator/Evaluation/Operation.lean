import Calculator.Expr.Printer
import Calculator.Settings.Format

/-!
# Operations and steps

An operation is what an evaluation did at an operator, function or factorial: the operands and the
value, both rounded. A step is what a trace says about it.
-/

namespace Calculator

/-- One line of a trace. -/
structure Step where
  expression : String
  description : String
  result : String
  deriving DecidableEq, Repr

/-- An operation that was carried out at a node. -/
inductive Operation where
  | binary (node : Expr) (op : Operator) (unary : Bool) (left right value : Float)
  | call (node : Expr) (f : FunctionKind) (argument value : Float)
  | factorial (node : Expr) (operand value : Float)

def Operator.operationName : Operator → String
  | add => "Addition"
  | sub => "Subtraction"
  | mul => "Multiplication"
  | div => "Division"
  | pow => "Exponentiation"

def Operator.describe (left right : String) : Operator → String
  | add => s!"Add {left} and {right}"
  | sub => s!"Subtract {right} from {left}"
  | mul => s!"Multiply {left} by {right}"
  | div => s!"Divide {left} by {right}"
  | pow => s!"Raise {left} to power {right}"

namespace Operation

def node : Operation → Expr
  | binary n _ _ _ _ _ | call n _ _ _ | factorial n _ _ => n

def value : Operation → Float
  | binary _ _ _ _ _ v | call _ _ _ v | factorial _ _ v => v

def describe (settings : ArithmeticSettings) : Operation → Except Fault String
  | binary _ op unary left right _ => do
    let leftText ← settings.formatNumber left
    let rightText ← settings.formatNumber right
    return if unary then s!"Negate {rightText}" else op.describe leftText rightText
  | call _ f argument _ => do
    return s!"Calculate {f.name} of {← settings.formatNumber argument}"
  | factorial _ operand _ => do
    return s!"Calculate factorial of {← settings.formatNumber operand}"

def step (settings : ArithmeticSettings) (o : Operation) : Except Fault Step := do
  let description ← o.describe settings
  let expression ← o.node.print
  return ⟨expression, description, ← settings.formatNumber o.value⟩

def outline : Operation → String
  | binary _ op _ left right v =>
    s!"{op.operationName}: {floatText left} {op.sign} {floatText right} = {floatText v}"
  | call _ f argument v => s!"{f.name}({floatText argument}) = {floatText v}"
  | factorial _ operand v => s!"{floatText operand}! = {floatText v}"

end Operation

end Calculator
