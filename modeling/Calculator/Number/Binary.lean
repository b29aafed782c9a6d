import Calculator.Number.Rounding

/-!
# Binary fractions

The exact value of a finite float is a whole number of at most 53 binary digits times a power of
two. `Binary.ofFloat` reads it off the float's bits, and `floatNearest` goes the other way: it gives
the float nearest to a fraction.
-/

namespace Calculator

/-- The number `± significand · 2 ^ exponent`. -/
structure Binary where
  negative : Bool
  significand : Nat
  exponent : Int
  deriving DecidableEq, Repr

namespace Binary

/-- The exact value of a finite float. The biased exponent 0 marks the floats below `2 ^ -1022`,
which have the same unit as those next to them and no leading 1. -/
def ofFloat (v : Float) : Binary :=
  let bits := v.toBits.toNat
  let fraction := bits % twos 52
  let biased := bits / twos 52 % twos 11
  { negative := bits / twos 63 == 1
    significand := if biased = 0 then fraction else twos 52 + fraction
    exponent := (max biased 1 : Nat) - 1075 }

def numerator (b : Binary) : Nat := b.significand * twos b.exponent

def denominator (b : Binary) : Nat := twos (-b.exponent)

theorem denominator_pos (b : Binary) : 0 < b.denominator := twos_pos _

def isWhole (b : Binary) : Bool := b.numerator % b.denominator == 0

def isZero (b : Binary) : Bool := b.significand == 0

def signed (b : Binary) (magnitude : Nat) : Int := if b.negative then -magnitude else magnitude

def truncate (b : Binary) : Int := b.signed (b.numerator / b.denominator)

/-- The nearest whole number; a half goes to the even neighbour. -/
def round (b : Binary) : Int := b.signed (roundHalfEven b.numerator b.denominator)

end Binary

/-- The bits of positive infinity, which follow those of the largest finite float. -/
def infinityBits : Nat := 2047 * twos 52

/-- The bits of the float nearest to `num / den`, a tie going to the even one. The unit in the last
place is `2 ^ unit`; the sum also serves floats below `2 ^ -1022`, and a significand that rounding
carried to `2 ^ 53`. -/
def nearestBits (num den : Nat) : Nat :=
  if num = 0 then 0
  else
    let unit : Int := max (leadingBinaryPlace num den - 52) (-1074)
    let significand := roundHalfEven (num * twos (-unit)) (den * twos unit)
    min ((unit + 1074).toNat * twos 52 + significand) infinityBits

def floatOfBits (negative : Bool) (bits : Nat) : Float :=
  Float.ofBits (UInt64.ofNat (if negative then twos 63 + bits else bits))

/-- The float nearest to `± num / den`; an infinity past the largest finite one. -/
def floatNearest (negative : Bool) (num den : Nat) : Float :=
  floatOfBits negative (nearestBits num den)

def floatOfInt (i : Int) : Float := floatNearest (i < 0) i.natAbs 1

end Calculator
