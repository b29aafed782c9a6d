import Calculator.Evaluation.Function
import Calculator.Number.Reading
import Calculator.Token.Lexer

/-!
# Variables

A symbol table holds a bounded number of variables. A name can be given to a variable if the text
of an expression reads it as one: it is a word, no function and no constant, and not too long. A
failing change leaves the table as it was.
-/

namespace Calculator

def maxVariables : Int := 10

def maxNameLength : Nat := 19

/-- A word of admissible length that names no function. -/
def isValidName (name : String) : Bool :=
  name.length ≤ maxNameLength && isWordStart (name.toList.headD ' ') &&
    name.toList.all isWordPart && (FunctionKind.ofName? name).isNone

def floatOfText (s : String) : Except Fault Float :=
  (readFloat? s).elim (.error (.notNumber (Text.quote s))) .ok

/-- The float that a value stands for; none if it stands for no number. -/
def Value.toFloat? : Value → Except Fault (Option Float)
  | bool b => .ok (some (if b then 1.0 else 0.0))
  | int i =>
    let v := floatOfInt i
    if v.isFinite then .ok (some v) else .error .integerTooLarge
  | float v => .ok (some v)
  | text t => .ok (t.toString?.bind readFloat?)
  | null | list _ | dict _ => .ok none

def variableOutline (name : String) (v : Float) : String :=
  s!"Variable({Text.quote name}, {floatText v})"

/-- Variables with their values, in the order in which they were introduced. -/
structure SymbolTable where
  capacity : Int
  entries : List (String × Float)

namespace SymbolTable

def empty (capacity : Int) : SymbolTable := ⟨capacity, []⟩

def nameOf (name : Value) : Except Failure String :=
  match name with
  | .text t => match t.toString?.filter isValidName with
    | none => refuse (.invalidName name)
    | some s => if (constantValue? s).isSome then refuse (.constantName s) else .ok s
  | _ => refuse (.invalidName name)

def numberOf (name : String) (value : Value) : Except Failure Float :=
  match value.toFloat? with
  | .error f => .error (.fault f)
  | .ok none => refuse (.invalidValue name value)
  | .ok (some v) => if v.isFinite then .ok v else refuse (.invalidValue name (.float v))

def get? (t : SymbolTable) (name : String) : Option Float := t.entries.lookup name

def contains (t : SymbolTable) (name : String) : Bool := (t.get? name).isSome

def size (t : SymbolTable) : Nat := t.entries.length

/-- Stores a number. A new variable needs room. -/
def put (t : SymbolTable) (name : String) (v : Float) : Except Failure SymbolTable :=
  if !t.contains name && t.capacity ≤ t.size then refuse (.variableLimit t.capacity name)
  else .ok { t with entries := putEntry name v t.entries }

/-- Gives a variable a value. The name is checked first, then the value, then the room. -/
def set (t : SymbolTable) (name value : Value) : Except Failure SymbolTable := do
  let name ← nameOf name
  t.put name (← numberOf name value)

def resolve (t : SymbolTable) (name : String) (span : Option Span) : Except Failure Float :=
  match (constantValue? name).or (t.get? name) with
  | some v => .ok v
  | none => failAt (.undefinedVariable name) span

def erase (t : SymbolTable) (name : String) : SymbolTable :=
  { t with entries := t.entries.filter (·.1 != name) }

def clear (t : SymbolTable) : SymbolTable := .empty t.capacity

def items (t : SymbolTable) : List (String × Float) :=
  t.entries.mergeSort fun a b => a.1 ≤ b.1

def names (t : SymbolTable) : List String := t.items.map Prod.fst

/-- A table of the same capacity into which the variables are set one after the other. -/
def copy (t : SymbolTable) : Except Failure SymbolTable :=
  t.items.foldlM (fun clone item => clone.set (.text item.1) (.float item.2)) (.empty t.capacity)

end SymbolTable

end Calculator
