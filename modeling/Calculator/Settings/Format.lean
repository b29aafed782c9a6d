import Calculator.Settings

/-!
# Rounding and showing numbers

`applyFormat` is the rounding that the settings ask for; every number that enters an evaluation or
results from it goes through it. `formatNumber` shows a number without zeros at the end of its
fraction.
-/

namespace Calculator

/-- The magnitude below which a number is not told from zero. -/
def epsilon : Float := 1e-10

/-- Rounds the decimal of a float; what is not finite has no places to round at. -/
def roundBy (rounding : Decimal → Decimal) (v : Float) : Except Fault Float :=
  if v.isFinite then .ok (mapDecimal rounding v) else .error .unboundedPlaces

/-- The number of places that keeps the given number of significant digits. The first digit of what
is not finite counts as standing at the ones. -/
def significantPlacesOf (digits : Int) (v : Float) : Int :=
  if v.isFinite then (Decimal.ofFloat v).significantPlaces digits else max digits 1 - 1

namespace ArithmeticSettings

/-- The rounding of decimals that the settings ask for. Truncation to significant digits is not told
from rounding. -/
def policy (s : ArithmeticSettings) : Decimal → Decimal :=
  match s.mode, s.significant with
  | .normal, _ => id
  | _, true => Decimal.roundSignificant s.precision
  | .truncate, false => Decimal.truncateAt s.precision
  | .round, false => Decimal.roundAt s.precision

/-- The number rounded as the settings ask for; what is not finite stays. -/
def applyFormat (s : ArithmeticSettings) (v : Float) : Float :=
  if v.isFinite then mapDecimal s.policy v else v

def displayDecimals (s : ArithmeticSettings) (v : Float) : Nat :=
  if s.mode = .normal then normalDecimals
  else if s.significant then
    let d := Decimal.ofFloat v
    if d.isNegligible then 0 else (d.significantPlaces s.precision).toNat
  else s.precision

end ArithmeticSettings

/-- A numeral without the zeros at the end of its fraction, and zero without a sign. -/
def canonicalNumeral (digits : List Char) : List Char :=
  let digits := dropFractionZeros digits
  if digits = ['-', '0'] ∨ digits = [] then ['0'] else digits

/-- The most decimal places that can be asked for, and the most that a number of places can say. -/
def maxDecimals : Nat := twos 31 - 1

def maxDecimalsNumber : Nat := twos 63 - 1

/-- No float has a digit other than zero past this place. -/
def lastDecimalPlace : Nat := 1074

def Binary.fixedText (b : Binary) (places : Nat) : Except Fault String :=
  if maxDecimalsNumber < places then .error .precisionDigits
  else if maxDecimals < places then .error .precisionTooBig
  else
    let d := b.fixed (min places lastDecimalPlace)
    .ok (String.ofList (canonicalNumeral (withSign d.negative d.positional)))

def ArithmeticSettings.formatNumber (s : ArithmeticSettings) (v : Float) : Except Fault String :=
  if !v.isFinite then .ok (nonFiniteText v)
  else
    let v := s.applyFormat v
    if !v.isFinite then .error .infinityToInteger
    else
      let b := Binary.ofFloat v
      if b.isWhole then .ok (integerText b.truncate) else b.fixedText (s.displayDecimals v)

end Calculator
