import Calculator.Number.Reading
import Calculator.Value

/-!
# Reading JSON

A text is read as one value between blanks. Besides the numbers of the format, the words `NaN`,
`Infinity` and `-Infinity` are numbers. A repeated key keeps its first place and its last value.
Two escapes by number that are the halves of a pair are one character.
-/

namespace Calculator.Json

open Text

/-- The brackets around other values. -/
inductive Container where
  | array
  | object
  deriving DecidableEq, Repr

def Container.word : Container → String
  | array => "array"
  | object => "object"

/-- Why a text is not read. -/
inductive Flaw where
  /-- The text is not in the format. -/
  | malformed
  /-- An integer has more digits than are converted. -/
  | integerDigits (digits : Nat)
  /-- Too many brackets are open where the container begins. -/
  | nesting (container : Container)
  deriving DecidableEq, Repr

/-- Something that was read, and the characters behind it. -/
abbrev Reading (α : Type) := Except Flaw (α × List Char)

def isSpace (c : Char) : Bool := c = ' ' || c = '\t' || c = '\n' || c = '\r'

def skipSpace (cs : List Char) : List Char := cs.dropWhile isSpace

def hexValue? (c : Char) : Option Nat :=
  if c.isDigit then some (c.toNat - '0'.toNat)
  else if 'a' ≤ c ∧ c ≤ 'f' then some (c.toNat - 'a'.toNat + 10)
  else if 'A' ≤ c ∧ c ≤ 'F' then some (c.toNat - 'A'.toNat + 10)
  else none

def hexUnit? (a b c d : Char) : Option Nat := do
  return ((← hexValue? a) * 16 + (← hexValue? b)) * 256 + (← hexValue? c) * 16 + (← hexValue? d)

def escaped? : Char → Option Char
  | '"' => some '"'
  | '\\' => some '\\'
  | '/' => some '/'
  | 'b' => some '\x08'
  | 'f' => some '\x0c'
  | 'n' => some '\n'
  | 'r' => some '\r'
  | 't' => some '\t'
  | _ => none

/-- The numbers of the code points up to the closing quotation mark, an escape by number as it is
written. -/
def readUnits : List Char → Reading (List Nat)
  | [] => .error .malformed
  | '"' :: cs => .ok ([], cs)
  | '\\' :: 'u' :: a :: b :: c :: d :: cs =>
    match hexUnit? a b c d with
    | none => .error .malformed
    | some unit => (readUnits cs).map fun (units, cs) => (unit :: units, cs)
  | '\\' :: c :: cs =>
    match escaped? c with
    | none => .error .malformed
    | some e => (readUnits cs).map fun (units, cs) => (e.toNat :: units, cs)
  | c :: cs =>
    if c = '\\' ∨ c.toNat < 0x20 then .error .malformed
    else (readUnits cs).map fun (units, cs) => (c.toNat :: units, cs)

/-- The code points with the given numbers, the two halves of a pair as one. -/
def joinPairs : List Nat → List CodePoint
  | high :: low :: units =>
    if isHighHalf high && isLowHalf low then .char (charOfPair high low) :: joinPairs units
    else .ofNumber high :: joinPairs (low :: units)
  | [unit] => [.ofNumber unit]
  | [] => []

def readString (cs : List Char) : Reading LooseText :=
  (readUnits cs).map fun (units, cs) => (⟨joinPairs units⟩, cs)

/-- The digits of a whole number, which starts with zero only if it is zero. -/
def splitWhole : List Char → List Char × List Char
  | '0' :: cs => (['0'], cs)
  | cs => (cs.takeWhile Char.isDigit, cs.dropWhile Char.isDigit)

/-- The digits behind a point, if a digit follows it. -/
def splitFraction : List Char → List Char × List Char
  | '.' :: cs =>
    if (cs.headD ' ').isDigit then (cs.takeWhile Char.isDigit, cs.dropWhile Char.isDigit)
    else ([], '.' :: cs)
  | cs => ([], cs)

/-- The power of ten behind an `e`, if it has digits. -/
def splitPower (cs : List Char) : Option Int × List Char :=
  match cs with
  | c :: behind =>
    let (negative, digits) := splitSign behind
    if c.toLower = 'e' ∧ (digits.headD ' ').isDigit then
      (some (integerOfDigits negative (digits.takeWhile Char.isDigit)),
        digits.dropWhile Char.isDigit)
    else (none, cs)
  | [] => (none, [])

/-- Reads a number without its sign: an integer, unless it has a fraction or a power of ten. -/
def readNumber (negative : Bool) (cs : List Char) : Reading Value :=
  let (whole, cs) := splitWhole cs
  let (fraction, cs) := splitFraction cs
  let (power, cs) := splitPower cs
  if whole = [] then .error .malformed
  else if fraction = [] ∧ power = none then
    if maxIntegerDigits < whole.length then .error (.integerDigits whole.length)
    else .ok (.int (integerOfDigits negative whole), cs)
  else
    .ok (.float (Decimal.ofDigits negative whole fraction (power.getD 0)).toFloat, cs)

def words : List (String × Value) :=
  [("null", .null), ("true", .bool true), ("false", .bool false), ("NaN", .float (0.0 / 0.0)),
   ("Infinity", .float (floatOfBits false infinityBits)),
   ("-Infinity", .float (floatOfBits true infinityBits))]

def readPlain (cs : List Char) : Reading Value :=
  match words.find? fun word => word.1.toList.isPrefixOf cs with
  | some (word, v) => .ok (v, cs.drop word.length)
  | none => match cs with
    | '-' :: cs => readNumber true cs
    | cs => readNumber false cs

def readKey : List Char → Reading LooseText
  | '"' :: cs => match readString cs with
    | .error flaw => .error flaw
    | .ok (key, cs) => match skipSpace cs with
      | ':' :: cs => .ok (key, skipSpace cs)
      | _ => .error .malformed
  | _ => .error .malformed

mutual

/-- Reads a value inside as many brackets as `depth` says, where a bracket can have `limit` others
around it. `fuel` bounds the number of values and items that are open at once. -/
def readValue (limit depth : Nat) : (fuel : Nat) → List Char → Reading Value
  | 0, _ => .error .malformed
  | _ + 1, '"' :: cs => (readString cs).map fun (t, cs) => (.text t, cs)
  | fuel + 1, '[' :: cs =>
    if limit < depth then .error (.nesting .array)
    else match skipSpace cs with
      | ']' :: cs => .ok (.list [], cs)
      | cs => (readItems limit (depth + 1) fuel cs).map fun (items, cs) => (.list items, cs)
  | fuel + 1, '\x7b' :: cs =>
    if limit < depth then .error (.nesting .object)
    else match skipSpace cs with
      | '\x7d' :: cs => .ok (.dict [], cs)
      | cs => (readEntries limit (depth + 1) fuel cs).map fun (entries, cs) =>
        (.dict (putEntries [] entries), cs)
  | _ + 1, cs => readPlain cs

def readItems (limit depth : Nat) : (fuel : Nat) → List Char → Reading (List Value)
  | 0, _ => .error .malformed
  | fuel + 1, cs =>
    match readValue limit depth fuel cs with
    | .error flaw => .error flaw
    | .ok (item, cs) => match skipSpace cs with
      | ',' :: cs =>
        (readItems limit depth fuel (skipSpace cs)).map fun (items, cs) => (item :: items, cs)
      | ']' :: cs => .ok ([item], cs)
      | _ => .error .malformed

def readEntries (limit depth : Nat) : (fuel : Nat) → List Char → Reading Entries
  | 0, _ => .error .malformed
  | fuel + 1, cs =>
    match readKey cs with
    | .error flaw => .error flaw
    | .ok (key, cs) => match readValue limit depth fuel cs with
      | .error flaw => .error flaw
      | .ok (v, cs) => match skipSpace cs with
        | ',' :: cs =>
          (readEntries limit depth fuel (skipSpace cs)).map fun (entries, cs) =>
            ((key, v) :: entries, cs)
        | '\x7d' :: cs => .ok ([(key, v)], cs)
        | _ => .error .malformed

end

/-- More values and items than can be open at once: each one or the next starts with a character of
its own. -/
def enoughFuel (cs : List Char) : Nat := 2 * cs.length + 2

def read (limit : Nat) (text : String) : Except Flaw Value :=
  match readValue limit 0 (enoughFuel text.toList) (skipSpace text.toList) with
  | .error flaw => .error flaw
  | .ok (v, rest) => if skipSpace rest = [] then .ok v else .error .malformed

end Calculator.Json
