import Calculator.Presentation
import Calculator.Startup

/-!
# The console

The console reads a line at a time. A blank line is passed over, and `exit` in any case ends it. Any
other line is entered; its steps are written with two blanks in front, then the result behind the
name of its variable. An error takes one line, and the next line is read. A fault ends the console.
-/

namespace Calculator

def greeting : String := "MathSolver. Enter an expression, 'name = expression' or 'exit'."

/-- What does not change from line to line. -/
structure Console where
  log : Log
  width : Value
  showSteps : Bool
  /-- The time in front of lines of the log. -/
  time : String

/-- What a line asks for. -/
inductive Request where
  | nothing
  | exit
  | enter (problem : String)
  deriving DecidableEq, Repr

def Request.ofLine (line : String) : Request :=
  let problem := Text.trim line
  if problem = "" then .nothing
  else if Text.lowercase problem = "exit" then .exit
  else .enter problem

namespace Console

def ofStartup (s : Startup) (time : String) : Console where
  log := s.log
  width := (s.settings.get? "display_width").getD .null
  showSteps := ((s.settings.get? "show_steps").getD .null).isSet
  time := time

def resultLine (entry : Entry) : String :=
  entry.name.elim "= " (fun name => s!"{name} = ") ++ entry.result.formatted

def entryLines (c : Console) (entry : Entry) : Except Fault (List String) :=
  (entry.result.lines c.width).map fun steps =>
    steps.map (fun step => s!"  {step}") ++ [resultLine entry]

def errorLine (e : MathError) : String :=
  let (title, message) := (Failure.error e).description
  s!"{title}: {message}"

/-- What is written about an entered line, and the session behind it. -/
def report (c : Console) (s : Session) : Except Failure (Entry × Session) → Transcript Session
  | .error (.error e) => ⟨[errorLine e], .ok s⟩
  | .error (.fault f) => ⟨[], .error (.fault f)⟩
  | .ok (entry, s) => match c.entryLines entry with
    | .ok lines => ⟨lines, .ok s⟩
    | .error f => ⟨[], .error (.fault f)⟩

def enter (c : Console) (s : Session) (problem : String) : Transcript Session :=
  let entered := s.enter problem c.showSteps
  (c.report s entered.value).after (c.log.screenLines c.time entered.events)

/-- Reads a line; none if it asks for the end. -/
def turn (c : Console) (s : Session) (line : String) : Option (Transcript Session) :=
  match Request.ofLine line with
  | .nothing => some ⟨[], .ok s⟩
  | .exit => none
  | .enter problem => some (c.enter s problem)

/-- Reads lines until one asks for the end, or a fault occurs. -/
def readLines (c : Console) (s : Session) : List String → Transcript Session
  | [] => ⟨[], .ok s⟩
  | line :: rest => match c.turn s line with
    | none => ⟨[], .ok s⟩
    | some t => match t.outcome with
      | .ok s => (c.readLines s rest).after t.lines
      | .error _ => t

end Console

def inputLines (input : String) : List String :=
  Text.splitAtEach (· = '\n') (Text.withLineFeeds input)

def Console.run (file : ConfigFile) (limit : Nat) (input time : String) : Transcript Session :=
  let started := Startup.start file limit {} time
  match started.outcome with
  | .error f => ⟨started.lines, .error f⟩
  | .ok startup =>
    ((Console.ofStartup startup time).readLines startup.session
      (inputLines input)).after (started.lines ++ [greeting])

end Calculator
