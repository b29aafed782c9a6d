import Calculator.Config
import Calculator.Window.Job

/-!
# The window

The window has an entry field, a display, a list of steps and buttons. A line is calculated as a job
of its own: it is started, it works, and what it delivers is shown. Meanwhile the window is busy and
starts no other. Settings come from the configuration file whenever it is loaded again.
-/

namespace Calculator

def blankDisplay : String := "0"

structure Window where
  file : ConfigFile
  session : Session
  /-- The settings as they were loaded last. -/
  settings : Entries
  entry : String := ""
  display : String := blankDisplay
  steps : List String := []
  stepsVisible : Bool := true
  dark : Bool := false
  /-- A calculation has been started and is not shown yet. -/
  busy : Bool := false
  /-- The jobs at work. -/
  running : List Job := []
  /-- What has been delivered and is not shown yet. -/
  posted : List Delivery := []
  lastResult : Option CalculationResult := none

inductive NoticeKind where
  | critical
  | information
  deriving DecidableEq, Repr

structure Notice where
  kind : NoticeKind
  title : String
  text : String
  deriving DecidableEq, Repr

/-- The window after something happened, and what else came of it. -/
structure Reaction where
  window : Window
  notices : List Notice := []
  /-- Texts that were copied. -/
  copied : List String := []
  /-- The fault that stopped it. -/
  fault : Option Fault := none

/-- Something happens after something else, unless that was stopped. -/
def Reaction.andThen (r : Reaction) (next : Window → Reaction) : Reaction :=
  match r.fault with
  | some _ => r
  | none =>
    let s := next r.window
    { s with notices := r.notices ++ s.notices, copied := r.copied ++ s.copied }

def MathError.notice (e : MathError) : Notice :=
  let (title, message) := (Failure.error e).description
  match e.equation with
  | none | some "" => ⟨.critical, title, message⟩
  | some equation => ⟨.critical, title, s!"{message}\n\nInput: {equation}"⟩

def busyNotice : Notice := ⟨.information, "Busy", interfaceMessage "4002"⟩

namespace Window

def setting (w : Window) (key : String) : Value := (w.settings.get? key).getD .null

/-- Takes over loaded settings; values that the session refuses give a notice. -/
def adopt (w : Window) (settings : Entries) : Reaction :=
  let w := { w with settings := settings }
  let looks (w : Window) : Window :=
    { w with stepsVisible := (w.setting "show_steps").isSet, dark := (w.setting "darkmode").isSet }
  match (w.session.applySettings settings).value with
  | .ok session => { window := looks { w with session := session } }
  | .error (.error e) => { window := looks w, notices := [e.notice] }
  | .error (.fault f) => { window := w, fault := some f }

def reload (w : Window) (limit : Nat) : Reaction :=
  match (w.file.load limit).value with
  | .ok settings => w.adopt settings
  | .error f => { window := w, fault := some f }

def opened (file : ConfigFile) (limit : Nat) (session : Session) : Reaction :=
  reload { file, session, settings := defaultSettings } limit

def start (w : Window) : Reaction :=
  let problem := Text.trim w.entry
  if problem = "" then { window := w }
  else if w.busy then { window := w, notices := [busyNotice] }
  else
    let job := ⟨problem, (w.setting "show_steps").isSet⟩
    { window := { w with busy := true, running := w.running ++ [job] } }

def work (w : Window) : Window :=
  match w.running with
  | [] => w
  | job :: rest =>
    let (delivery, session) := (job.run w.session).value
    { w with session := session, running := rest, posted := w.posted ++ [delivery] }

def showResult (w : Window) (r : CalculationResult) (name : Option String) : Reaction :=
  let text := name.elim r.formatted fun n => s!"{n} = {r.formatted}"
  let w := { w with lastResult := some r, display := text, steps := [] }
  match r.lines (w.setting "display_width") with
  | .ok lines => { window := { w with steps := lines } }
  | .error f => { window := w, fault := some f }

/-- Shows what a job delivered, and is ready for the next one. -/
def receive (w : Window) (d : Delivery) : Reaction :=
  let w := { w with busy := false }
  match d.outcome with
  | .ok r => w.showResult r d.name
  | .error e => { window := w, notices := [e.notice] }

/-- Takes what was delivered first. -/
def deliver (w : Window) : Reaction :=
  match w.posted with
  | [] => { window := w }
  | d :: rest => { w with posted := rest }.receive d

def copyResult (w : Window) : Reaction :=
  { window := w, copied := w.lastResult.toList.map (·.formatted) }

def clear (w : Window) : Window := { w with entry := "", display := blankDisplay, steps := [] }

def type (w : Window) (text : String) : Window := { w with entry := text }

end Window

end Calculator
