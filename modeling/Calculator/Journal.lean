import Calculator.Evaluation.Result

/-!
# The journal

What the parts of the calculator report about their work. An event becomes a record with the name of
the part, a level and a message; `Logged` is a result together with the events up to it.
-/

namespace Calculator

namespace Level

def debug : Int := 10

def info : Int := 20

def warning : Int := 30

def error : Int := 40

end Level

/-- A line for the log. -/
structure Record where
  logger : String
  level : Int
  message : String
  deriving DecidableEq, Repr

inductive Event where
  | tokenRead (t : Token)
  | parsed (text : String) (count : Nat)
  | performed (o : Operation)
  | evaluated (r : CalculationResult)
  | failed (text : String) (e : MathError)
  | variableSet (name : String) (v : Float)
  | settingsChanged (s : ArithmeticSettings)
  /-- A file could not be read, or holds no data. -/
  | unreadable
  /-- A file could not be written. -/
  | unsaved
  /-- The log starts at a level, and possibly in a file. -/
  | logStarted (level : String) (file : Option String)

def loggerName (part : String) : String := "mathsolver" ++ part

def Event.record : Event → Record
  | tokenRead t =>
    ⟨loggerName ".Tokenizer", Level.debug,
      s!"token {t.kind.label} {Text.quote t.text} at {t.span.first}"⟩
  | parsed text count =>
    ⟨loggerName ".Parser", Level.debug, s!"parsed {Text.quote text} using {count} nodes"⟩
  | performed o => ⟨loggerName ".Evaluator", Level.debug, o.outline⟩
  | evaluated r =>
    ⟨loggerName ".MathEngine", Level.debug,
      s!"{Text.quote r.expression} = {floatText r.value} ({r.stepCount} steps)"⟩
  | failed text e =>
    ⟨loggerName ".MathEngine", Level.info,
      s!"Evaluation of {Text.quote text} failed: [{e.code}] {e.text}"⟩
  | variableSet name v =>
    ⟨loggerName ".SymbolTable", Level.debug, s!"variable {name} = {floatText v}"⟩
  | settingsChanged s =>
    ⟨loggerName ".MathEngine", Level.info, s!"Arithmetic mode set to {s.outline}"⟩
  | unreadable => ⟨loggerName ".config_manager", Level.warning, "Could not read"⟩
  | unsaved => ⟨loggerName ".config_manager", Level.error, "Could not save settings"⟩
  | logStarted level file =>
    ⟨loggerName "", Level.debug, s!"Logging at {level}" ++
      file.elim "" fun path => s!", also to {path}"⟩

/-- A result, and what was reported on the way to it. -/
structure Logged (α : Type) where
  events : List Event
  value : α

namespace Logged

def silent {α : Type} (value : α) : Logged α := ⟨[], value⟩

/-- Another result after the same events. -/
def map {α β : Type} (f : α → β) (l : Logged α) : Logged β := ⟨l.events, f l.value⟩

def after {α : Type} (events : List Event) (l : Logged α) : Logged α :=
  ⟨events ++ l.events, l.value⟩

end Logged

end Calculator
