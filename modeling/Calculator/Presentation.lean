import Calculator.Session

/-!
# Presentation

Steps as lines of limited width, and the line that a user enters: an expression, or an assignment.
-/

namespace Calculator

def ellipsis : String := "..."

/-- The smallest width that leaves room for a character before the mark. -/
def minWidth : Int := 4

def firstChars (n : Int) (text : String) : String := String.ofList (text.toList.take n.toNat)

def shortenTo (width : Int) (text : String) : String :=
  if text.length ≤ width then text
  else if width < minWidth then firstChars width text
  else firstChars (width - ellipsis.length) text ++ ellipsis

/-- The text in the width that a value states; null stands for any width. A width that is no whole
number is a fault once a line has to be cut at it. -/
def shorten (width : Value) (text : String) : Except Fault String :=
  match width with
  | .null => .ok text
  | .bool b => .ok (shortenTo (if b then 1 else 0) text)
  | .int n => .ok (shortenTo n text)
  | .float v =>
    if Float.ofNat text.length ≤ v then .ok text
    else if v < 0 then .ok ""
    else .error .widthNotWhole
  | .text _ | .list _ | .dict _ => .error (.widthKind width.kindName)

namespace Step

def line (s : Step) : String := s!"{s.expression} => {s.description} => {s.result}"

end Step

namespace CalculationResult

def droppedNote (r : CalculationResult) : List String :=
  if r.dropped = 0 then [] else [s!"({r.dropped} more steps not shown)"]

def lines (r : CalculationResult) (width : Value) : Except Fault (List String) :=
  (r.steps.map Step.line ++ r.droppedNote).mapM (shorten width)

end CalculationResult

/-- The name and the expression of an assignment; any other line is an expression as a whole. -/
def splitAssignment (line : String) : Option String × String :=
  let before := line.toList.takeWhile (· != '=')
  match line.toList.dropWhile (· != '=') with
  | [] => (none, line)
  | _ :: behind =>
    let name := Text.trim (String.ofList before)
    let expression := Text.trim (String.ofList behind)
    if behind.contains '=' || !isValidName name || expression = "" then (none, line)
    else (some name, expression)

/-- The result of a line that was entered, and the variable that holds it. -/
structure Entry where
  name : Option String
  result : CalculationResult

/-- Evaluates a line, and assigns the result if the line names a variable. -/
def Session.enter (s : Session) (line : String) (trace : Bool) :
    Logged (Except Failure (Entry × Session)) :=
  let (name, expression) := splitAssignment line
  let evaluated := s.evaluate expression trace
  match evaluated.value, name with
  | .error f, _ => ⟨evaluated.events, .error f⟩
  | .ok r, none => ⟨evaluated.events, .ok (⟨none, r⟩, s)⟩
  | .ok r, some n =>
    ((s.setVariable (.text n) (.float r.value)).after evaluated.events).map fun changed =>
      changed.map fun s => (⟨some n, r⟩, s)

end Calculator
