import Calculator.Token
import Calculator.Value

/-!
# Errors

What can be wrong with an input, and how it is reported. Each cause has one message and belongs to
one kind; a kind has a code of four digits whose first names the category. A fault is no error of
the input: it is a limit of the machinery that a caller has to handle itself.
-/

namespace Calculator

inductive ErrorKind where
  | unexpectedCharacter
  | expectedOperand
  | unmatchedParen
  | expectedArgList
  | trailingInput
  | nodeLimitExceeded
  | divisionByZero
  | invalidOperation
  | undefinedVariable
  | variableLimitExceeded
  | invalidName
  | invalidSettings
  deriving DecidableEq, Repr

def ErrorKind.code : ErrorKind → String
  | unexpectedCharacter => "3011"
  | expectedOperand => "3027"
  | unmatchedParen => "3009"
  | expectedArgList => "3010"
  | trailingInput => "3012"
  | nodeLimitExceeded => "3031"
  | divisionByZero => "3003"
  | invalidOperation => "3018"
  | undefinedVariable => "3032"
  | variableLimitExceeded => "3033"
  | invalidName => "3034"
  | invalidSettings => "5001"

/-- Where an error arises. -/
inductive ErrorStage where
  | lexing
  | parsing
  | evaluation
  | settings
  | unknown
  deriving DecidableEq, Repr

/-- The code of an error without a kind. -/
def unexpectedCode : String := "9999"

inductive Cause where
  | unexpectedCharacter (c : Char)
  | expectedOperand (found : Token)
  | unmatchedParen (opening found : Token)
  | expectedArgList (function found : Token)
  | trailingInput (found : Token)
  | nodeLimit (capacity : Int)
  | divisionByZero (dividend divisor : String)
  | overflow (operation : String)
  | logarithmDomain (argument : Float)
  | naturalLogarithmDomain (argument : Float)
  | squareRootDomain (argument : Float)
  | unknownFunction
  | powerDomain (base exponent : Float)
  | factorialDomain (argument : Float)
  | factorialLimit (argument : Int)
  | undefinedVariable (name : String)
  | variableLimit (capacity : Int) (name : String)
  | invalidName (name : Value)
  | constantName (name : String)
  | invalidValue (name : String) (value : Value)
  | unknownMode (mode : Value)
  | precisionKind (precision : Value)
  | negativePrecision (precision : Int)
  | stepLimit (limit : Value)
  /-- An error with a message of its own. -/
  | stated (stage : ErrorStage) (message code : String) (kind : Option ErrorKind)

/-- The largest argument of the factorial: the factorial of 171 is past the largest float. -/
def maxFactorial : Nat := 170

namespace Cause

def stage : Cause → ErrorStage
  | unexpectedCharacter _ => .lexing
  | expectedOperand _ | unmatchedParen _ _ | expectedArgList _ _ | trailingInput _
  | nodeLimit _ => .parsing
  | unknownMode _ | precisionKind _ | negativePrecision _ | stepLimit _ => .settings
  | stated s _ _ _ => s
  | _ => .evaluation

def kind : Cause → Option ErrorKind
  | unexpectedCharacter _ => some .unexpectedCharacter
  | expectedOperand _ => some .expectedOperand
  | unmatchedParen _ _ => some .unmatchedParen
  | expectedArgList _ _ => some .expectedArgList
  | trailingInput _ => some .trailingInput
  | nodeLimit _ => some .nodeLimitExceeded
  | divisionByZero _ _ => some .divisionByZero
  | overflow _ | logarithmDomain _ | naturalLogarithmDomain _ | squareRootDomain _
  | unknownFunction | powerDomain _ _ | factorialDomain _ | factorialLimit _
  | invalidValue _ _ => some .invalidOperation
  | undefinedVariable _ => some .undefinedVariable
  | variableLimit _ _ => some .variableLimitExceeded
  | invalidName _ | constantName _ => some .invalidName
  | unknownMode _ | precisionKind _ | negativePrecision _ | stepLimit _ => some .invalidSettings
  | stated _ _ _ k => k

def code (c : Cause) : String :=
  match c, c.kind with
  | _, some k => k.code
  | stated _ _ given _, none => given
  | _, none => unexpectedCode

def message : Cause → String
  | unexpectedCharacter c => s!"Unexpected character: {Text.quote (String.singleton c)}"
  | expectedOperand found =>
    s!"Expected a number, variable, function or '(' but found {found.description}"
  | unmatchedParen opening found =>
    s!"Missing closing parenthesis for '(' at column {opening.span.column}, " ++
      s!"found {found.description}"
  | expectedArgList function found =>
    s!"Missing '(' after function '{function.text}', found {found.description}"
  | trailingInput found => s!"Unexpected input after expression: {found.description}"
  | nodeLimit capacity => s!"Expression too large: more than {integerText capacity} nodes"
  | divisionByZero dividend divisor => s!"Division by zero: {dividend} / {divisor}"
  | overflow operation => s!"Number too large in {operation}"
  | logarithmDomain x => s!"Cannot take logarithm of a non-positive number: {shortText x}"
  | naturalLogarithmDomain x =>
    s!"Cannot take natural logarithm of a non-positive number: {shortText x}"
  | squareRootDomain x => s!"Cannot take square root of a negative number: {shortText x}"
  | unknownFunction => "Unknown function: None"
  | powerDomain base exponent => s!"Cannot raise {shortText base} to power {shortText exponent}"
  | factorialDomain x =>
    s!"Factorial is only defined for non-negative integers, got {shortText x}"
  | factorialLimit n =>
    s!"Factorial argument too large: {integerText n} (maximum {maxFactorial})"
  | undefinedVariable name => s!"Undefined variable: {name}"
  | variableLimit capacity name =>
    s!"Too many variables (maximum {integerText capacity}); cannot add '{name}'"
  | invalidName name => s!"Invalid variable name: {name.shown}"
  | constantName name => s!"Cannot assign to constant '{name}'"
  | invalidValue name value => s!"Invalid value for '{name}': {value.shown}"
  | unknownMode mode => s!"Unknown arithmetic mode: {mode.shown}"
  | precisionKind precision => s!"Precision must be an integer, got {precision.shown}"
  | negativePrecision precision =>
    s!"Precision must not be negative, got {integerText precision}"
  | stepLimit limit => s!"max_steps must be a non-negative integer, got {limit.shown}"
  | stated _ text _ _ => text

/-- The values in the message can be shown. -/
def isShowable : Cause → Bool
  | invalidName v | invalidValue _ v | unknownMode v | precisionKind v | stepLimit v => v.isShowable
  | negativePrecision i => (Value.int i).isShowable
  | _ => true

end Cause

/-- An error of the input: its cause, its place if it has one, and the input if that is known. -/
structure MathError where
  cause : Cause
  span : Option Span
  equation : Option String

namespace MathError

def of (cause : Cause) (span : Option Span) : MathError := ⟨cause, span, none⟩

def stage (e : MathError) : ErrorStage := e.cause.stage

def kind (e : MathError) : Option ErrorKind := e.cause.kind

def code (e : MathError) : String := e.cause.code

def text (e : MathError) : String :=
  match e.span with
  | some s => s!"{e.cause.message} (line {s.line}, column {s.column})"
  | none => e.cause.message

def inEquation (e : MathError) (input : String) : MathError := { e with equation := some input }

end MathError

/-- The category that the first digit of a code names. -/
def errorCategories : List (String × String) :=
  [("3", "Calculator Error"), ("4", "UI Error"), ("5", "Configuration Error"),
   ("9", "Unexpected Error")]

def interfaceMessages : List (String × String) :=
  [("4002", "Calculation already Running!"), ("4501", "Not all Settings could be saved: "),
   ("9999", "Unexpected Error: ")]

/-- The category of a code; an unknown one counts as unexpected. -/
def categoryOf (code : String) : String :=
  let unexpected := (errorCategories.lookup "9").getD ""
  (errorCategories.lookup (String.ofList (code.toList.take 1))).getD unexpected

def errorTitle (code : String) : String := s!"{categoryOf code} {code}"

/-- A limit that stops an operation. -/
inductive Fault where
  | infinityToInteger
  | nanToInteger
  | trigonometricDomain
  | integerTooLarge
  /-- More decimals than can be asked for. -/
  | precisionTooBig
  /-- More decimals than a number can say. -/
  | precisionDigits
  | unknownNode
  | unknownOperator
  | missingOperator
  /-- An operation without an operator has no sign to write. -/
  | missingSign
  /-- Decimal places of what is not finite. -/
  | unboundedPlaces
  /-- A width of a kind that has no order. -/
  | widthKind (kind : String)
  /-- A width that has an order but counts nothing. -/
  | widthNotWhole
  /-- A file that holds something other than named entries. -/
  | notNamed (kind : String)
  | undecodable (reason : String)
  /-- More open brackets than are read, the last one around what the word says. -/
  | nesting (word : String)
  | integerDigits (digits : Nat)
  /-- A whole number with too many digits to be shown. -/
  | integerShown
  /-- A text that is no whole number, as it is shown. -/
  | notInteger (text : String)
  /-- A value of a kind that stands for no number. -/
  | integerKind (kind : String)
  /-- A text that is no number, as it is shown. -/
  | notNumber (text : String)

def Fault.message : Fault → String
  | infinityToInteger => "cannot convert float infinity to integer"
  | nanToInteger => "cannot convert float NaN to integer"
  | trigonometricDomain => "math domain error"
  | integerTooLarge => "int too large to convert to float"
  | precisionTooBig => "precision too big"
  | precisionDigits => "Too many decimal digits in format string"
  | unknownNode => "Unknown node type: Node"
  | unknownOperator => "Unknown operator: None"
  | missingOperator => "None"
  | missingSign => "'NoneType' object has no attribute 'value'"
  | unboundedPlaces => "'>=' not supported between instances of 'str' and 'int'"
  | widthKind kind => s!"'<=' not supported between instances of 'int' and '{kind}'"
  | widthNotWhole => "slice indices must be integers or None or have an __index__ method"
  | notNamed kind => s!"'{kind}' object has no attribute 'get'"
  | undecodable reason => reason
  | nesting word =>
    s!"maximum recursion depth exceeded while decoding a JSON {word} from a unicode string"
  | integerDigits digits =>
    s!"Exceeds the limit (4300 digits) for integer string conversion: value has {digits} " ++
      "digits; use sys.set_int_max_str_digits() to increase the limit"
  | integerShown =>
    "Exceeds the limit (4300 digits) for integer string conversion; use " ++
      "sys.set_int_max_str_digits() to increase the limit"
  | notInteger text => s!"invalid literal for int() with base 10: {text}"
  | integerKind kind =>
    s!"int() argument must be a string, a bytes-like object or a real number, not '{kind}'"
  | notNumber text => s!"could not convert string to float: {text}"

/-- Why an operation has no result. -/
inductive Failure where
  | error (e : MathError)
  | fault (f : Fault)

namespace Failure

def description : Failure → String × String
  | error e => (errorTitle e.code, e.text)
  | fault f => (errorTitle unexpectedCode, f.message)

end Failure

def failAt {α : Type} (cause : Cause) (span : Option Span) : Except Failure α :=
  .error (.error (.of cause span))

/-- The refusal of a value: an error, or the fault that its message cannot be written. -/
def refuse {α : Type} (cause : Cause) : Except Failure α :=
  if cause.isShowable then failAt cause none else .error (.fault .integerShown)

end Calculator
