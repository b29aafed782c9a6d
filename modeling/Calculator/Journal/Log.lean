import Calculator.Journal
import Calculator.Text.Blank
import Calculator.Text.Lines

/-!
# The log

A log is kept on the screen and possibly in a file, from a level on. The level is a number or the
name of one. A record that is shown becomes one line or more; the time in front of it is given from
outside.
-/

namespace Calculator

namespace Level

def numbers : List (String × Int) :=
  [("CRITICAL", 50), ("FATAL", 50), ("ERROR", 40), ("WARN", 30), ("WARNING", 30), ("INFO", 20),
   ("DEBUG", 10), ("NOTSET", 0)]

def names : List (Int × String) :=
  [(50, "CRITICAL"), (40, "ERROR"), (30, "WARNING"), (20, "INFO"), (10, "DEBUG"), (0, "NOTSET")]

def name (level : Int) : String := (names.lookup level).getD s!"Level {integerText level}"

/-- The capital of a letter. The dotless i and the long s have a Latin capital too. -/
def capital (c : Char) : Char := if c = 'ı' then 'I' else if c = 'ſ' then 'S' else c.toUpper

def ofName? (name : String) : Option Int :=
  numbers.lookup (String.ofList ((Text.trim name).toList.map capital))

/-- The level that a value states by its number or its name. Any other value states the level of
information. -/
def ofValue : Value → Int
  | .int i => i
  | .bool b => if b then 1 else 0
  | v => (v.word?.bind ofName?).getD info

def nameOfValue (v : Value) : String :=
  match v with
  | .bool true => s!"Level {v.shown}"
  | v => name (ofValue v)

/-- The level of a log to which none was given. -/
def unset : Int := 0

end Level

/-- Where a log is kept. -/
inductive LogTarget where
  | screen
  | file (path : String)
  deriving DecidableEq, Repr

/-- A log: the level from which on records are shown, and the places where they are. -/
structure Log where
  level : Int := Level.unset
  targets : List LogTarget := []

namespace Log

def start (level : Value) (path : Option String) : Logged Log :=
  ⟨[.logStarted (Level.nameOfValue level) path],
    ⟨Level.ofValue level, .screen :: (path.map LogTarget.file).toList⟩⟩

/-- The lowest level of a record that is looked at: that of warnings if no level is set. -/
def threshold (log : Log) : Int := if log.level = Level.unset then Level.warning else log.level

/-- The record comes from the calculator or one of its parts. -/
def concerns (logger : String) : Bool :=
  logger = loggerName "" || (loggerName ".").toList.isPrefixOf logger.toList

def shows (log : Log) (r : Record) : Bool :=
  concerns r.logger && 0 < r.level && log.threshold ≤ r.level && log.level ≤ r.level

def recordLines (time : String) (r : Record) : List String :=
  Text.lines s!"{time} - {r.logger} - {Level.name r.level} - {r.message}\n"

def lines (log : Log) (target : LogTarget) (time : String) (r : Record) : List String :=
  if log.targets.contains target && log.shows r then recordLines time r else []

def screenLines (log : Log) (time : String) (events : List Event) : List String :=
  events.flatMap fun e => log.lines .screen time e.record

end Log

end Calculator
