import Calculator.Number.Decimal

/-!
# The shortest decimal of a float

A float is written with the fewest significant digits that read back as the same float. Of the
decimals with that many digits that do, the nearest is taken, and of two equally near ones the one
with an even last digit. Seventeen digits always suffice.
-/

namespace Calculator

/-- The two decimals around the fraction `num / den` whose last digit stands at `place`, the nearer
one first. -/
def gridNeighbours (negative : Bool) (num den : Nat) (place : Int) : List Decimal :=
  let scaledNum := num * tens (-place)
  let scaledDen := den * tens place
  let below := scaledNum / scaledDen
  let nearest := roundHalfEven scaledNum scaledDen
  let other := if nearest = below then below + 1 else below
  [⟨negative, nearest, place⟩, ⟨negative, other, place⟩]

def Decimal.denotes (d : Decimal) (v : Float) : Bool := d.toFloat.toBits == v.toBits

def Binary.toDecimal (b : Binary) : Decimal :=
  if 0 ≤ b.exponent then ⟨b.negative, b.numerator, 0⟩
  else ⟨b.negative, b.significand * Nat.pow 5 (-b.exponent).toNat, b.exponent⟩

/-- The shortest decimal of a finite float other than zero. -/
def shortestDecimal (v : Float) : Decimal :=
  let b := Binary.ofFloat v
  let leading := leadingDecimalPlace b.numerator b.denominator
  let candidates := (List.range 17).flatMap fun (n : Nat) =>
    gridNeighbours b.negative b.numerator b.denominator (leading - n)
  ((candidates.find? (·.denotes v)).getD b.toDecimal).withoutTrailingZeros

/-- Positional notation is used when the leading digit stands at one of the places -4 to 15. -/
def Decimal.isPositional (d : Decimal) : Bool := -4 ≤ d.leadingPlace && d.leadingPlace < 16

/-- The decimal of a finite float as it is written: a whole number in positional notation keeps one
place, so that 14 is `14.0` and zero is `0.0`. -/
def Decimal.ofFloat (v : Float) : Decimal :=
  let b := Binary.ofFloat v
  if b.isZero then ⟨b.negative, 0, -1⟩
  else
    let d := shortestDecimal v
    if 0 ≤ d.exponent ∧ d.isPositional then
      { d with coefficient := d.coefficient * tens (d.exponent + 1), exponent := -1 }
    else d

/-- An operation on decimals carried over to finite floats. A float whose decimal does not change
stays the same. -/
def mapDecimal (f : Decimal → Decimal) (v : Float) : Float :=
  let d := Decimal.ofFloat v
  if f d = d then v else (f d).toFloat

end Calculator
