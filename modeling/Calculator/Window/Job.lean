import Calculator.Presentation

/-!
# Jobs of the window

A job enters one line while the window stays in use. It always ends with one delivery: the result,
or an error. A fault is delivered as an error too.
-/

namespace Calculator

def interfaceMessage (code : String) : String := (interfaceMessages.lookup code).getD ""

/-- A line that is to be entered. -/
structure Job where
  line : String
  traced : Bool
  deriving DecidableEq, Repr

/-- What a job ends with. -/
structure Delivery where
  outcome : Except MathError CalculationResult
  line : String
  /-- The variable that the result was assigned to. -/
  name : Option String

/-- The error that reports a fault in a line. -/
def Fault.report (f : Fault) (line : String) : MathError :=
  ⟨.stated .unknown (interfaceMessage unexpectedCode ++ f.message) unexpectedCode none, none,
    some line⟩

/-- Carries out a job in a session: what it delivers, and the session behind it. -/
def Job.run (j : Job) (s : Session) : Logged (Delivery × Session) :=
  (s.enter j.line j.traced).map fun
    | .ok (entry, s) => (⟨.ok entry.result, j.line, entry.name⟩, s)
    | .error (.error e) => (⟨.error e, j.line, none⟩, s)
    | .error (.fault f) => (⟨.error (f.report j.line), j.line, none⟩, s)

end Calculator
