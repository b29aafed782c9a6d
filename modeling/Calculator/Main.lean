import Calculator.Console
import Std.Time.Format

/-!
# The program

Runs the console on the standard input, with the configuration file of the working directory.
-/

namespace Calculator

def configPath : String := "config.json"

/-- The number of brackets that a bracket in it can have around it. -/
def maxNesting : Nat := 1000

def clock : IO String := do return (← Std.Time.PlainTime.now).toTime24Hour

def findConfig : IO ConfigFile := do
  let content ← try some <$> IO.FS.readBinFile configPath catch _ => pure none
  return { ConfigFile.absent configPath with content := content.map (·.toList) }

/-- Writes what was written to the screen, and what stopped it to the error output. -/
def printTranscript {α : Type} (t : Transcript α) : IO (Option α) := do
  t.lines.forM fun line => IO.println line
  (← IO.getStdout).flush
  match t.outcome with
  | .ok a => return some a
  | .error f =>
    let (title, message) := f.description
    IO.eprintln s!"{title}: {message}"
    return none

/-- Reads lines until the input ends, and answers with the exit code. -/
partial def serve (startup : Startup) (session : Session) (pending : List String) : IO UInt32 := do
  match pending with
  | [] =>
    let line ← (← IO.getStdin).getLine
    if line = "" then return 0 else serve startup session (inputLines line)
  | line :: rest =>
    match (Console.ofStartup startup (← clock)).turn session line with
    | none => return 0
    | some t => match ← printTranscript t with
      | none => return 1
      | some session => serve startup session rest

end Calculator

open Calculator in
def main : IO UInt32 := do
  match ← printTranscript (Startup.start (← findConfig) maxNesting {} (← clock)) with
  | none => return 1
  | some startup =>
    IO.println greeting
    serve startup startup.session []
