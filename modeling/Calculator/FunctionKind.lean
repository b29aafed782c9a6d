/-!
# The functions of the language

Their names only; what they compute stands with the evaluation.
-/

namespace Calculator

inductive FunctionKind where
  | sin
  | cos
  | tan
  | log
  | ln
  | sqrt
  deriving DecidableEq, Repr

namespace FunctionKind

def all : List FunctionKind := [sin, cos, tan, log, ln, sqrt]

def name : FunctionKind → String
  | sin => "sin"
  | cos => "cos"
  | tan => "tan"
  | log => "log"
  | ln => "ln"
  | sqrt => "sqrt"

def ofName? (name : String) : Option FunctionKind := all.find? (·.name == name)

theorem ofName?_name (f : FunctionKind) : ofName? f.name = some f := by cases f <;> decide

end FunctionKind

end Calculator
