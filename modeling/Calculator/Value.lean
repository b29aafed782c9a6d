import Calculator.Number.Notation
import Calculator.Number.Reading

/-!
# Loose values

Settings and arguments come from files and from callers as values of any kind. Operations check the
kind themselves and show an unsuitable value in their messages as it is written here. A text within
a value may hold what is no character, and then matches no name.
-/

namespace Calculator

open Text (LooseText)

inductive Value where
  | null
  | bool (b : Bool)
  | int (i : Int)
  | float (v : Float)
  | text (t : LooseText)
  | list (items : List Value)
  /-- Pairs of a key and a value in the order of insertion. -/
  | dict (entries : List (LooseText × Value))

namespace Value

def commaSeparated (parts : List String) : String := ", ".intercalate parts

mutual

/-- The value as messages show it: text in quotes, floats in their shortest form. -/
def shown : Value → String
  | null => "None"
  | bool b => if b then "True" else "False"
  | int i => integerText i
  | float v => floatText v
  | text t => t.quoted
  | list items => "[" ++ commaSeparated (shownItems items) ++ "]"
  | dict entries => "\x7b" ++ commaSeparated (shownEntries entries) ++ "\x7d"

def shownItems : List Value → List String
  | [] => []
  | v :: vs => v.shown :: shownItems vs

def shownEntries : List (LooseText × Value) → List String
  | [] => []
  | (key, v) :: rest => (key.quoted ++ ": " ++ v.shown) :: shownEntries rest

end

mutual

/-- The value can be shown: none of its whole numbers has too many digits. -/
def isShowable : Value → Bool
  | int i => i.natAbs < Nat.pow 10 maxIntegerDigits
  | list items => areShowable items
  | dict entries => entriesShowable entries
  | null | bool _ | float _ | text _ => true

def areShowable : List Value → Bool
  | [] => true
  | v :: vs => v.isShowable && areShowable vs

def entriesShowable : List (LooseText × Value) → Bool
  | [] => true
  | (_, v) :: rest => v.isShowable && entriesShowable rest

end

/-- The value as plain text: text stands for itself. -/
def plainText : Value → LooseText
  | text t => t
  | v => v.shown

/-- The value as a word to look up, if all of it is characters. -/
def word? (v : Value) : Option String := v.plainText.toString?

def kindName : Value → String
  | null => "NoneType"
  | bool _ => "bool"
  | int _ => "int"
  | float _ => "float"
  | text _ => "str"
  | list _ => "list"
  | dict _ => "dict"

/-- Whether the value counts as set: not null, false, zero or empty. -/
def isSet : Value → Bool
  | null => false
  | bool b => b
  | int i => i ≠ 0
  | float v => !(v == 0)
  | text t => !t.points.isEmpty
  | list items => !items.isEmpty
  | dict entries => !entries.isEmpty

end Value

/-- The entries of a dictionary. -/
abbrev Entries := List (LooseText × Value)

def Entries.get? (entries : Entries) (name : String) : Option Value :=
  entries.lookup (LooseText.ofString name)

/-- Puts an entry into a dictionary: an existing key keeps its place, a new one goes to the end. -/
def putEntry {κ α : Type} [DecidableEq κ] (key : κ) (value : α) : List (κ × α) → List (κ × α)
  | [] => [(key, value)]
  | (k, v) :: rest => if k = key then (k, value) :: rest else (k, v) :: putEntry key value rest

def putEntries {κ α : Type} [DecidableEq κ] (entries updates : List (κ × α)) : List (κ × α) :=
  updates.foldl (fun acc entry => putEntry entry.1 entry.2 acc) entries

section

variable {κ α : Type} [DecidableEq κ]

theorem lookup_putEntry (key name : κ) (value : α) (entries : List (κ × α)) :
    (putEntry key value entries).lookup name =
      if name = key then some value else entries.lookup name := by
  induction entries with
  | nil =>
    by_cases h : name = key
    · simp [putEntry, h]
    · have h' : (name == key) = false := beq_false_of_ne h
      simp [putEntry, List.lookup_cons, h, h']
  | cons entry rest ih =>
    obtain ⟨k, v⟩ := entry
    by_cases hn : name = k
    · subst hn
      by_cases hk : name = key <;> simp [putEntry, hk]
    · have hn' : (name == k) = false := beq_false_of_ne hn
      by_cases hk : k = key
      · subst hk
        simp [putEntry, List.lookup_cons, hn, hn']
      · simp [putEntry, List.lookup_cons, hk, hn', ih]

theorem keys_putEntry (key : κ) (value : α) (entries : List (κ × α)) :
    (putEntry key value entries).map Prod.fst =
      if key ∈ entries.map Prod.fst then entries.map Prod.fst
      else entries.map Prod.fst ++ [key] := by
  induction entries with
  | nil => simp [putEntry]
  | cons entry rest ih =>
    obtain ⟨k, v⟩ := entry
    by_cases hk : k = key
    · simp [putEntry, hk]
    · have hk' : ¬key = k := fun h => hk h.symm
      simp only [putEntry, if_neg hk, List.map_cons, ih, List.mem_cons, hk', false_or]
      split <;> simp

end

end Calculator
