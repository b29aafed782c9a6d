import Calculator.Text.Case
import Calculator.Window

/-!
# The settings dialog

The dialog shows the settings of the configuration file for changing. Pressing OK takes the new
settings over into the session, saves them and lets the window load them again; if the session
refuses them or they cannot be saved, a notice says so and the dialog stays open.
-/

namespace Calculator

def dialogPrecisions : Nat × Nat := (0, 15)

/-- The settings that are chosen by a mark. -/
def checkKeys : List String := ["use_significant_digits", "show_steps", "darkmode"]

/-- The number of characters that are shown of a text that is no whole number. -/
def maxShownInteger : Nat := 200

/-- The fault of a text that is not read as a whole number; a long text is not shown to its end. -/
def IntegerFlaw.fault (t : Text.LooseText) : IntegerFlaw → Fault
  | notWhole => .notInteger (String.ofList (t.quoted.toList.take maxShownInteger))
  | tooManyDigits count => .integerDigits count

def Value.toInteger : Value → Except Fault Int
  | .int i => .ok i
  | .bool b => .ok (if b then 1 else 0)
  | .float v =>
    if v.isNaN then .error .nanToInteger
    else if v.isInf then .error .infinityToInteger
    else .ok (Binary.ofFloat v).truncate
  | .text t => (readInteger t).mapError (·.fault t)
  | v => .error (.integerKind v.kindName)

/-- What the fields of the dialog show of a setting that is put into them. -/
structure DialogFields where
  mode : Text.LooseText → Except Fault Text.LooseText
  precision : Int → Except Fault Int
  /-- A precision that is not shown as it is becomes one that can be chosen. -/
  precision_cases : ∀ p shown, precision p = .ok shown → shown = p ∨
    (dialogPrecisions.1 : Int) ≤ shown ∧ shown ≤ dialogPrecisions.2

/-- What the dialog shows. -/
structure Dialog where
  /-- The settings as they were loaded. -/
  settings : Entries
  mode : Text.LooseText
  precision : Int
  checks : List (String × Bool)
  dark : Bool

/-- How the dialog was left. -/
inductive DialogOutcome where
  | accepted
  | rejected
  deriving DecidableEq, Repr

inductive DialogButton where
  | ok
  | cancel
  deriving DecidableEq, Repr

/-- Changes in the dialog, and a button that is pressed behind them. -/
structure DialogAct where
  mode : Option Text.LooseText
  precision : Option Int
  checks : List (String × Bool)
  button : Option DialogButton

namespace Dialog

def ofSettings (fields : DialogFields) (settings : Entries) : Except Fault Dialog := do
  let value (key : String) := (settings.get? key).getD .null
  return { settings
           mode := ← fields.mode (value "arithmetic_mode").plainText.lowercase
           precision := ← fields.precision (← (value "precision").toInteger)
           checks := checkKeys.map fun key => (key, (value key).isSet)
           dark := (value "darkmode").isSet }

def opened (fields : DialogFields) (file : ConfigFile) (limit : Nat) : Except Fault Dialog := do
  ofSettings fields (← (file.load limit).value)

def edit (d : Dialog) (a : DialogAct) : Dialog :=
  { d with
    mode := a.mode.getD d.mode
    precision := a.precision.getD d.precision
    checks := putEntries d.checks a.checks }

/-- The loaded settings with those that the dialog shows in their places. -/
def entries (d : Dialog) : Entries :=
  let chosen : Entries := [("arithmetic_mode", .text d.mode), ("precision", .int d.precision)]
  let checked : Entries := d.checks.map fun (key, b) => (key, .bool b)
  putEntries d.settings (chosen ++ checked)

def refusal (e : MathError) : Notice :=
  ⟨.critical, "Invalid Input:", s!"{e.text}\n\nPlease correct your input."⟩

def unsavedNotice (file : ConfigFile) : Notice :=
  ⟨.critical, "Error", interfaceMessage "4501" ++ file.path⟩

/-- Saves the settings of the dialog: what comes of it, and whether they were saved. -/
def save (d : Dialog) (w : Window) (limit : Nat) : Reaction × Bool :=
  match (w.session.applySettings d.entries).value with
  | .error (.error e) => ({ window := w, notices := [refusal e] }, false)
  | .error (.fault f) => ({ window := w, fault := some f }, false)
  | .ok session =>
    let w := { w with session := session }
    match (w.file.save d.entries).value with
    | (.ok true, file) => ({ w with file := file }.reload limit, true)
    | (.ok false, _) => ({ window := w, notices := [unsavedNotice w.file] }, false)
    | (.error f, file) => ({ window := { w with file := file }, fault := some f }, false)

def press (d : Dialog) (w : Window) (limit : Nat) : DialogButton → Reaction × Option DialogOutcome
  | .cancel => ({ window := w }, some .rejected)
  | .ok =>
    let (reaction, saved) := d.save w limit
    (reaction, if saved then some .accepted else none)

/-- One act after the other, until the dialog is left. -/
def run (d : Dialog) (w : Window) (limit : Nat) : List DialogAct → Reaction × Option DialogOutcome
  | [] => ({ window := w }, none)
  | act :: acts =>
    let d := d.edit act
    match act.button with
    | none => d.run w limit acts
    | some button =>
      let (reaction, outcome) := d.press w limit button
      if outcome.isSome || reaction.fault.isSome then (reaction, outcome)
      else
        let (later, outcome) := d.run reaction.window limit acts
        (reaction.andThen fun _ => later, outcome)

end Dialog

end Calculator
