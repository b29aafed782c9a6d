import Calculator.Number.Binary

/-!
# Decimals

A decimal is a sign, a coefficient and a power of ten. The same number has several decimals, which
differ in how many places are written; `0.50` and `0.5` are two of them.
-/

namespace Calculator

/-- The number `± coefficient · 10 ^ exponent`, written with the digits of `coefficient`. -/
structure Decimal where
  negative : Bool
  coefficient : Nat
  exponent : Int
  deriving DecidableEq, Repr

namespace Decimal

def numerator (d : Decimal) : Nat := d.coefficient * tens d.exponent

def denominator (d : Decimal) : Nat := tens (-d.exponent)

theorem denominator_pos (d : Decimal) : 0 < d.denominator := tens_pos _

/-- The decimal place of the first written digit: 0 for the ones, 1 for the tens. -/
def leadingPlace (d : Decimal) : Int := d.exponent + digitCount d.coefficient - 1

/-- The exponent of a power of ten above the magnitude, from the number of binary digits alone. -/
def ceilingPlace (d : Decimal) : Int := d.exponent + (d.coefficient.log2 / 3 + 1 : Nat)

/-- The exponent of a power of ten that a magnitude other than zero reaches. -/
def floorPlace (d : Decimal) : Int := d.exponent + (d.coefficient.log2 / 4 : Nat)

/-- The float nearest to the decimal. Past the two bounds the answer is zero or an infinity, and the
power of ten is not computed. -/
def toFloat (d : Decimal) : Float :=
  if d.coefficient = 0 ∨ d.ceilingPlace < -400 then floatOfBits d.negative 0
  else if 400 < d.floorPlace then floatOfBits d.negative infinityBits
  else floatNearest d.negative d.numerator d.denominator

/-- The decimal with at most `places` digits after the point; a negative number of places stands for
tens, hundreds and so on. A decimal with no more places than that stays as it is written. -/
def cut (rounding : Rounding) (places : Int) (d : Decimal) : Decimal :=
  if -places ≤ d.exponent then d
  else
    { d with
      coefficient := rounding.quotient d.coefficient (tens (-places - d.exponent))
      exponent := -places }

def truncateAt (places : Int) (d : Decimal) : Decimal := d.cut .towardZero (max places 0)

def roundAt (places : Int) (d : Decimal) : Decimal := d.cut .halfAway (max places 0)

/-- The number of places that keeps the given number of significant digits; at least one is kept. -/
def significantPlaces (digits : Int) (d : Decimal) : Int := max digits 1 - d.leadingPlace - 1

/-- Magnitudes below `10 ^ -10` count as zero. -/
def isNegligible (d : Decimal) : Bool :=
  d.coefficient * tens (d.exponent + 10) < tens (-(d.exponent + 10))

def zero : Decimal := ⟨false, 0, -1⟩

/-- The nearest decimal with the given number of significant digits, zero if the magnitude is
negligible. -/
def roundSignificant (digits : Int) (d : Decimal) : Decimal :=
  if d.isNegligible then zero else d.cut .halfAway (d.significantPlaces digits)

def withoutTrailingZeros (d : Decimal) : Decimal :=
  if d.coefficient = 0 ∨ d.coefficient % 10 ≠ 0 then d
  else withoutTrailingZeros { d with coefficient := d.coefficient / 10, exponent := d.exponent + 1 }
termination_by d.coefficient
decreasing_by omega

theorem coefficient_lt (d : Decimal) :
    d.coefficient < tens (d.coefficient.log2 / 3 + 1 : Nat) := by
  have h : d.coefficient.log2 + 1 ≤ 3 * (d.coefficient.log2 / 3 + 1) := by omega
  have hpow := Nat.lt_of_lt_of_le Nat.lt_log2_self (Nat.pow_le_pow_right (by decide) h)
  rw [Nat.pow_mul] at hpow
  exact Nat.lt_of_lt_of_le hpow (Nat.pow_le_pow_left (by decide) _)

theorem le_coefficient {d : Decimal} (h : d.coefficient ≠ 0) :
    tens (d.coefficient.log2 / 4 : Nat) ≤ d.coefficient := by
  have hle : 4 * (d.coefficient.log2 / 4) ≤ d.coefficient.log2 := by omega
  have hpow := Nat.le_trans (Nat.pow_le_pow_right (by decide) hle) (Nat.log2_self_le h)
  rw [Nat.pow_mul] at hpow
  exact Nat.le_trans (Nat.pow_le_pow_left (by decide) _) hpow

theorem cut_of_le {rounding : Rounding} {places : Int} {d : Decimal} (h : -places ≤ d.exponent) :
    d.cut rounding places = d := if_pos h

theorem cut_negative (rounding : Rounding) (places : Int) (d : Decimal) :
    (d.cut rounding places).negative = d.negative := by
  unfold cut
  split <;> rfl

theorem le_exponent_cut (rounding : Rounding) (places : Int) (d : Decimal) :
    -places ≤ (d.cut rounding places).exponent := by
  unfold cut
  split <;> simp_all

end Decimal

end Calculator
