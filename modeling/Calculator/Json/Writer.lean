import Calculator.Value

/-!
# Writing JSON

A value is written in ASCII characters, each item and each entry on a line of its own, four blanks
farther in than the brackets around it. A character that is not printable ASCII is escaped by its
number, and one past the first 65536 by the numbers of the halves of its pair.
-/

namespace Calculator.Json

open Text

def unitEscape (n : Nat) : List Char := '\\' :: 'u' :: hexadecimal 4 n

def stringChar (c : Char) : List Char :=
  if c = '"' then ['\\', '"']
  else if c = '\\' then ['\\', '\\']
  else if c = '\n' then ['\\', 'n']
  else if c = '\r' then ['\\', 'r']
  else if c = '\t' then ['\\', 't']
  else if c = '\x0c' then ['\\', 'f']
  else if c = '\x08' then ['\\', 'b']
  else if ' ' ≤ c ∧ c ≤ '~' then [c]
  else if c.toNat < 0x10000 then unitEscape c.toNat
  else
    let n := c.toNat - 0x10000
    unitEscape (firstHalf + n / 0x400) ++ unitEscape (firstLowHalf + n % 0x400)

def stringPoint : CodePoint → List Char
  | .char c => stringChar c
  | .half place => unitEscape (CodePoint.halfNumber place)

def writeString (t : LooseText) : List Char := '"' :: t.points.flatMap stringPoint ++ ['"']

/-- A float; the words stand for what is no number of the format. -/
def writeFloat (v : Float) : List Char :=
  if v.isFinite then (floatText v).toList
  else if v.isNaN then "NaN".toList
  else if v < 0 then "-Infinity".toList
  else "Infinity".toList

def newLine (depth : Nat) : List Char := '\n' :: List.replicate (4 * depth) ' '

mutual

/-- A value whose brackets stand at the given depth. -/
def writeValue (depth : Nat) : Value → List Char
  | .null => "null".toList
  | .bool b => if b then "true".toList else "false".toList
  | .int i => (integerText i).toList
  | .float v => writeFloat v
  | .text t => writeString t
  | .list [] => ['[', ']']
  | .list (v :: vs) =>
    '[' :: newLine (depth + 1) ++ writeValue (depth + 1) v ++ writeItems (depth + 1) vs ++
      newLine depth ++ [']']
  | .dict [] => ['\x7b', '\x7d']
  | .dict ((key, v) :: entries) =>
    '\x7b' :: newLine (depth + 1) ++ writeString key ++ ':' :: ' ' :: writeValue (depth + 1) v ++
      writeEntries (depth + 1) entries ++ newLine depth ++ ['\x7d']

/-- The items behind the first one. -/
def writeItems (depth : Nat) : List Value → List Char
  | [] => []
  | v :: vs => ',' :: newLine depth ++ writeValue depth v ++ writeItems depth vs

def writeEntries (depth : Nat) : Entries → List Char
  | [] => []
  | (key, v) :: entries =>
    ',' :: newLine depth ++ writeString key ++ ':' :: ' ' :: writeValue depth v ++
      writeEntries depth entries

end

def write (v : Value) : String := String.ofList (writeValue 0 v)

/-- What is written of an item that is broken off. A number is written together with what stands in
front of it, any other item behind it. -/
def itemStart (lead start : List Char) : Value → List Char
  | .int _ => []
  | _ => lead ++ start

mutual

/-- What is written of a value before a whole number that cannot be shown, if it has one. -/
def valueStart? (depth : Nat) : Value → Option (List Char)
  | .int i => if (Value.int i).isShowable then none else some []
  | .list vs => itemsStart? (depth + 1) ('[' :: newLine (depth + 1)) vs
  | .dict entries => entriesStart? (depth + 1) ('\x7b' :: newLine (depth + 1)) entries
  | .null | .bool _ | .float _ | .text _ => none

/-- What is written of items with `lead` in front of the first of them. -/
def itemsStart? (depth : Nat) (lead : List Char) : List Value → Option (List Char)
  | [] => none
  | v :: vs => match valueStart? depth v with
    | some start => some (itemStart lead start v)
    | none => (itemsStart? depth (',' :: newLine depth) vs).map fun start =>
      lead ++ writeValue depth v ++ start

def entriesStart? (depth : Nat) (lead : List Char) : Entries → Option (List Char)
  | [] => none
  | (key, v) :: entries =>
    let named := lead ++ writeString key ++ [':', ' ']
    match valueStart? depth v with
    | some start => some (named ++ start)
    | none => (entriesStart? depth (',' :: newLine depth) entries).map fun start =>
      named ++ writeValue depth v ++ start

end

/-- The text of a value up to the first whole number that cannot be shown, if there is one. -/
def writtenBefore? (v : Value) : Option String := (valueStart? 0 v).map String.ofList

end Calculator.Json
