import Calculator.Number.Shortest

/-!
# Written numbers

The notations in which numbers are shown: positional and with an exponent, with a fixed number of
places, and with six significant digits for messages.
-/

namespace Calculator

def withSign (negative : Bool) (digits : List Char) : List Char :=
  if negative then '-' :: digits else digits

def integerText (i : Int) : String :=
  String.ofList (withSign (i < 0) (Nat.toDigits 10 i.natAbs))

/-- A numeral without the zeros at the end of its fraction, and without the point if no place is
left. -/
def dropFractionZeros (digits : List Char) : List Char :=
  if digits.contains '.' then
    ((digits.reverse.dropWhile (· == '0')).dropWhile (· == '.')).reverse
  else digits

namespace Decimal

def positional (d : Decimal) : List Char :=
  if 0 ≤ d.exponent then Nat.toDigits 10 d.coefficient ++ List.replicate d.exponent.toNat '0'
  else
    Nat.toDigits 10 (d.coefficient / tens (-d.exponent)) ++
      '.' :: (Nat.toDigits 10 (d.coefficient % tens (-d.exponent))).leftpad (-d.exponent).toNat '0'

/-- One digit before the point and an exponent of at least two digits after an `e`. -/
def scientific (digits : List Char) (place : Int) : List Char :=
  let fraction := if digits.length ≤ 1 then [] else '.' :: digits.drop 1
  digits.take 1 ++ fraction ++ 'e' :: (if place < 0 then '-' else '+') ::
    (Nat.toDigits 10 place.natAbs).leftpad 2 '0'

/-- The decimal in positional notation where that is short, else with an exponent. -/
def text (d : Decimal) : String :=
  String.ofList <| withSign d.negative <|
    if d.isPositional then d.positional
    else scientific (Nat.toDigits 10 d.coefficient) d.leadingPlace

end Decimal

def nonFiniteText (v : Float) : String :=
  if v.isNaN then "nan" else if v < 0 then "-inf" else "inf"

/-- A float in the fewest digits that read back. -/
def floatText (v : Float) : String :=
  if v.isFinite then (Decimal.ofFloat v).text else nonFiniteText v

/-- The exact value with the given number of places, a half going to the even neighbour. -/
def Binary.fixed (places : Nat) (b : Binary) : Decimal :=
  ⟨b.negative, roundHalfEven (b.numerator * tens places) b.denominator, -places⟩

/-- The exact value rounded to six significant digits: the digits, and the place of the first. -/
def Binary.sixDigits (b : Binary) : Nat × Int :=
  let place := leadingDecimalPlace b.numerator b.denominator
  let rounded := roundHalfEven (b.numerator * tens (5 - place))
    (b.denominator * tens (place - 5))
  if rounded = tens 6 then (tens 5, place + 1) else (rounded, place)

/-- A float as messages show it: six significant digits without zeros at the end, and an exponent
for a leading place below -4 or above 5. -/
def shortText (v : Float) : String :=
  if v.isFinite then
    let b := Binary.ofFloat v
    String.ofList <| withSign b.negative <|
      if b.isZero then ['0']
      else
        let (digits, place) := b.sixDigits
        if -4 ≤ place ∧ place < 6 then
          dropFractionZeros (Decimal.positional ⟨false, digits, place - 5⟩)
        else
          let d := Decimal.withoutTrailingZeros ⟨false, digits, 0⟩
          Decimal.scientific (Nat.toDigits 10 d.coefficient) place
  else nonFiniteText v

end Calculator
