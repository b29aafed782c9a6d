import Calculator.Journal
import Calculator.Json.Reader
import Calculator.Json.Writer
import Calculator.Text.Lines
import Calculator.Text.Utf8

/-!
# Configuration files

A configuration file holds named settings. What it lacks has a default, and a file that is missing
or holds no data counts as empty; bytes that are no text are a fault. A second file of the same form
holds a description for each setting.
-/

namespace Calculator

def defaultSettings : Entries :=
  [("arithmetic_mode", .text "normal"), ("precision", .int 4),
   ("use_significant_digits", .bool false), ("show_steps", .bool true), ("max_steps", .int 20),
   ("display_width", .int 40), ("darkmode", .bool false), ("log_level", .text "INFO")]

def allKey : String := "all"

/-- A file at a path; a missing one has no content. -/
structure ConfigFile where
  path : String
  content : Option (List UInt8)
  /-- The file can be written. -/
  writable : Bool

namespace ConfigFile

def absent (path : String) : ConfigFile := ⟨path, none, true⟩

def withText (file : ConfigFile) (text : String) : ConfigFile :=
  { file with content := some (Text.encode text) }

def ofEntries (path : String) (entries : Entries) : ConfigFile :=
  (absent path).withText (Json.write (.dict entries))

def text? (file : ConfigFile) : Option (Except Text.Utf8Error String) :=
  file.content.map fun bytes => (Text.decode bytes).map Text.withLineFeeds

/-- The value in the file; an empty dictionary if there is none. A bracket can have `limit` others
around it. -/
def read (file : ConfigFile) (limit : Nat) : Logged (Except Fault Value) :=
  match file.text? with
  | none => ⟨[.unreadable], .ok (.dict [])⟩
  | some (.error e) => .silent (.error (.undecodable e.message))
  | some (.ok text) => match Json.read limit text with
    | .ok v => .silent (.ok v)
    | .error .malformed => ⟨[.unreadable], .ok (.dict [])⟩
    | .error (.integerDigits n) => .silent (.error (.integerDigits n))
    | .error (.nesting container) => .silent (.error (.nesting container.word))

/-- The default settings with those of a stored value in their places; a value other than a
dictionary stores none. -/
def overlay (stored : Value) : Entries :=
  match stored with
  | .dict entries => putEntries defaultSettings entries
  | _ => defaultSettings

def load (file : ConfigFile) (limit : Nat) : Logged (Except Fault Entries) :=
  (file.read limit).map fun stored => stored.map overlay

/-- The settings as one value for the key of all, else the setting of the key, zero if there is
none. -/
def setting (file : ConfigFile) (limit : Nat) (key : String) : Logged (Except Fault Value) :=
  (file.load limit).map fun loaded => loaded.map fun (settings : Entries) =>
    if key = allKey then .dict settings else (settings.get? key).getD (.int 0)

/-- The value in the file for the key of all, else the description of the key, the key itself if
there is none. -/
def description (file : ConfigFile) (limit : Nat) (key : String) : Logged (Except Fault Value) :=
  (file.read limit).map fun stored => do
    let stored ← stored
    if key = allKey then return stored
    else match stored with
      | .dict entries => return (Entries.get? entries key).getD (.text key)
      | v => .error (.notNamed v.kindName)

/-- Puts the given settings in place of the content if the file can be written: whether that was
done, and the file behind it. A whole number that cannot be shown is a fault, and the content ends
in front of it. -/
def save (file : ConfigFile) (settings : Entries) : Logged (Except Fault Bool × ConfigFile) :=
  if file.writable then
    match Json.writtenBefore? (.dict settings) with
    | none => .silent (.ok true, file.withText (Json.write (.dict settings)))
    | some start => .silent (.error .integerShown, file.withText start)
  else ⟨[.unsaved], (.ok false, file)⟩

end ConfigFile

end Calculator
