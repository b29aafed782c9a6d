import Calculator.Text.Quoted

/-!
# Loose text

A code point past the first 65536 can be written as a pair of surrogates, and what is written so may
hold half a pair. That is no character, and no text holds one; a loose text may. Every text is a
loose text, and is shown in quotes alike.
-/

namespace Calculator.Text

/-- The code points that are halves of pairs begin here; the first 1024 of them come first in a
pair. -/
def firstHalf : Nat := 0xd800

def firstLowHalf : Nat := 0xdc00

def halfCount : Nat := 0x800

/-- The code point may begin a pair. -/
def isHighHalf (n : Nat) : Bool := firstHalf ≤ n && n < firstLowHalf

/-- The code point may end a pair. -/
def isLowHalf (n : Nat) : Bool := firstLowHalf ≤ n && n < firstHalf + halfCount

def charOfPair (high low : Nat) : Char :=
  Char.ofNat (0x10000 + (high - firstHalf) * 0x400 + (low - firstLowHalf))

/-- A character, or half of a pair that stands alone. -/
inductive CodePoint where
  | char (c : Char)
  | half (place : Fin halfCount)
  deriving DecidableEq, Repr

namespace CodePoint

def ofNumber (n : Nat) : CodePoint :=
  if h : firstHalf ≤ n ∧ n - firstHalf < halfCount then half ⟨n - firstHalf, h.2⟩
  else char (Char.ofNat n)

def halfNumber (place : Fin halfCount) : Nat := firstHalf + place

theorem ofNumber_toNat (c : Char) : ofNumber c.toNat = char c := by
  have hc := c.valid
  have hn : ¬(firstHalf ≤ c.toNat ∧ c.toNat - firstHalf < halfCount) := by
    simp only [firstHalf, halfCount]
    rcases hc with h | ⟨h, -⟩ <;> simp only [Char.toNat, UInt32.toNat] at * <;> omega
  simp [ofNumber, hn]

theorem ofNumber_halfNumber (place : Fin halfCount) : ofNumber (halfNumber place) = half place := by
  simp [ofNumber, halfNumber]

def isChar (p : Char → Bool) : CodePoint → Bool
  | char c => p c
  | half _ => false

def char? : CodePoint → Option Char
  | char c => some c
  | half _ => none

def quoted (delimiter : Char) : CodePoint → List Char
  | char c => quotedChar delimiter c
  | half place => '\\' :: 'u' :: hexadecimal 4 (halfNumber place)

end CodePoint

/-- A sequence of code points. -/
structure LooseText where
  points : List CodePoint
  deriving DecidableEq, Repr

namespace LooseText

def ofString (s : String) : LooseText := ⟨s.toList.map .char⟩

instance : Coe String LooseText := ⟨ofString⟩

/-- The text, if no half of a pair is in it. -/
def toString? (t : LooseText) : Option String := (t.points.mapM CodePoint.char?).map String.ofList

def quoted (t : LooseText) : String :=
  let mark := delimiterOf (t.points.filterMap CodePoint.char?)
  String.ofList (mark :: t.points.flatMap (CodePoint.quoted mark) ++ [mark])

theorem mapM_char? (cs : List Char) :
    (cs.map CodePoint.char).mapM CodePoint.char? = some cs := by
  induction cs with
  | nil => rfl
  | cons c cs ih => simp [CodePoint.char?, ih]

theorem toString?_ofString (s : String) : (ofString s).toString? = some s := by
  rw [toString?, ofString, mapM_char?, Option.map_some, String.ofList_toList]

end LooseText

end Calculator.Text
