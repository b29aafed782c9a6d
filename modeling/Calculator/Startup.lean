import Calculator.Config
import Calculator.Journal.Log
import Calculator.Session

/-!
# Starting the program

At the start the configuration is loaded, then the log is started, and then the settings are taken
over into the session. What is logged before the log has started is not shown.
-/

namespace Calculator

/-- Lines that were written to the screen, and how it went on. -/
structure Transcript (α : Type) where
  lines : List String
  outcome : Except Failure α

def Transcript.after {α : Type} (lines : List String) (t : Transcript α) : Transcript α :=
  ⟨lines ++ t.lines, t.outcome⟩

structure Startup where
  settings : Entries
  log : Log
  session : Session

namespace Startup

def withSettings (settings : Entries) (session : Session) (time : String) :
    Transcript Startup :=
  let started := Log.start ((settings.get? "log_level").getD (.text "INFO")) none
  let changed := session.applySettings settings
  ⟨started.value.screenLines time (started.events ++ changed.events),
    changed.value.map fun session => ⟨settings, started.value, session⟩⟩

def start (file : ConfigFile) (limit : Nat) (session : Session) (time : String) :
    Transcript Startup :=
  match (file.load limit).value with
  | .ok settings => withSettings settings session time
  | .error f => ⟨[], .error (.fault f)⟩

end Startup

end Calculator
