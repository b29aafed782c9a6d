import Calculator.Expr.Parser
import Calculator.Journal

/-!
# Sessions

A session holds the variables and the arithmetic settings for a series of evaluations. An operation
that changes a session answers with the new one, or fails and leaves the old one in force.
-/

namespace Calculator

structure Session where
  settings : ArithmeticSettings := {}
  symbols : SymbolTable := .empty maxVariables
  maxSteps : Int := Calculator.maxSteps
  maxNodes : Int := Calculator.maxNodes

def maxInputLength : Nat := 100

namespace Session

def environment (s : Session) (traced : Bool) : Environment := ⟨s.symbols, s.settings, traced⟩

def parse (s : Session) (text : String) : Logged (Except MathError Parsed) :=
  let reading := (tokensRead text s.maxNodes).map Event.tokenRead
  match Calculator.parse text s.maxNodes with
  | .ok p => ⟨reading ++ [.parsed text p.count], .ok p⟩
  | .error e => ⟨reading, .error e⟩

/-- An evaluation that failed: an error is about the given text, and is reported. -/
def failing {α : Type} (text : String) : Failure → Logged (Except Failure α)
  | .error e => ⟨[.failed text e], .error (.error (e.inEquation text))⟩
  | .fault f => .silent (.error (.fault f))

def evaluate (s : Session) (text : String) (trace : Bool) :
    Logged (Except Failure CalculationResult) :=
  let parsed := s.parse text
  match parsed.value with
  | .error e => (failing text (.error e)).after parsed.events
  | .ok p =>
    let env := s.environment trace
    let walk := env.walk p.tree
    let events := parsed.events ++ walk.operations.map Event.performed
    match env.result walk s.maxSteps text with
    | .ok r => ⟨events ++ [.evaluated r], .ok r⟩
    | .error f => (failing text f).after events

def validate (s : Session) (text : String) : Logged (Bool × String) :=
  (s.parse text).map fun
    | .ok _ => (true, "")
    | .error e => (false, e.text)

def formatExpression (s : Session) (text : String) : Logged (Except Failure String) :=
  (s.parse text).map fun
    | .ok p => p.tree.print.mapError .fault
    | .error e => .error (.error e)

/-- The value of a text without any rounding. -/
def exactValue (s : Session) (text : String) : Logged (Except Failure Float) :=
  let parsed := s.parse text
  match parsed.value with
  | .error e => ⟨parsed.events, .error (.error (e.inEquation text))⟩
  | .ok p =>
    let walk := Environment.walk ⟨s.symbols, {}, false⟩ p.tree
    let events := parsed.events ++ walk.operations.map Event.performed
    match walk.outcome with
    | .error (.error e) => ⟨events, .error (.error (e.inEquation text))⟩
    | outcome => ⟨events, outcome⟩

/-- The shown text stands for a number that is not told from the exact one. -/
def isExact (shown : String) (exact : Float) : Bool :=
  (readFloat? shown).all fun v => !((v - exact).abs > epsilon)

/-- The result of a text behind a sign that tells whether the shown number is exact. -/
def calculate (s : Session) (text : String) : Logged (Except Failure String) :=
  let shown := s.evaluate text false
  match shown.value with
  | .error f => ⟨shown.events, .error f⟩
  | .ok r =>
    ((s.exactValue text).after shown.events).map fun exact =>
      exact.map fun v => (if isExact r.formatted v then "= " else "≈ ") ++ r.formatted

def setVariable (s : Session) (name value : Value) : Logged (Except Failure Session) :=
  match SymbolTable.nameOf name, s.symbols.set name value with
  | .ok n, .ok table =>
    ⟨((table.get? n).map (Event.variableSet n)).toList, .ok { s with symbols := table }⟩
  | _, .error f => .silent (.error f)
  | .error f, .ok _ => .silent (.error f)

def changeSettings (s : Session) (settings : Except Failure ArithmeticSettings) :
    Logged (Except Failure Session) :=
  match settings with
  | .ok settings => ⟨[.settingsChanged settings], .ok { s with settings := settings }⟩
  | .error f => .silent (.error f)

/-- Sets mode and precision; the mark for significant digits is taken away unless it is given. -/
def setArithmeticMode (s : Session) (mode precision : Value) (significant : Option Value) :
    Logged (Except Failure Session) :=
  s.changeSettings <| s.settings.update (some mode) (some precision)
    (some (significant.getD (.bool false)))

def stepLimitOf (v : Value) : Except Failure Int :=
  match v with
  | .int i => if i < 0 then refuse (.stepLimit v) else .ok i
  | _ => refuse (.stepLimit v)

def applySettings (s : Session) (entries : Entries) :
    Logged (Except Failure Session) :=
  match stepLimitOf ((entries.get? "max_steps").getD (.int s.maxSteps)) with
  | .error f => .silent (.error f)
  | .ok limit =>
    (s.changeSettings <| s.settings.update (entries.get? "arithmetic_mode")
      (entries.get? "precision") (entries.get? "use_significant_digits")).map fun changed =>
        changed.map fun s => { s with maxSteps := limit }

end Session

end Calculator
