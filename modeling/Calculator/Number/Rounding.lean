import Calculator.Number.Power

/-!
# Rounding quotients

Quotients of natural numbers rounded to whole numbers, and the decimal and binary places of the
leading digit of a positive fraction. Floats and decimals are rounded through these functions only,
so that all arithmetic on digits is exact.
-/

namespace Calculator

/-- The whole number nearest to `num / den`; a half goes to the even neighbour. -/
def roundHalfEven (num den : Nat) : Nat :=
  let quotient := num / den
  let twice := 2 * (num % den)
  if den < twice ∨ (twice = den ∧ quotient % 2 = 1) then quotient + 1 else quotient

/-- What happens to the digits that are cut off. -/
inductive Rounding where
  /-- They are dropped. -/
  | towardZero
  /-- The nearest value is taken, and of two the one farther from zero. -/
  | halfAway
  deriving DecidableEq, Repr

def Rounding.quotient : Rounding → Nat → Nat → Nat
  | .towardZero, num, den => num / den
  | .halfAway, num, den => (2 * num + den) / (2 * den)

/-- The number of decimal digits of `n`; zero has one. -/
def digitCount (n : Nat) : Nat := n.repr.length

/-- The decimal place of the leading digit of the positive fraction `num / den`: 0 for the ones,
1 for the tens, -1 for the tenths. -/
def leadingDecimalPlace (num den : Nat) : Int :=
  if den ≤ num then digitCount (num / den) - 1 else -digitCount ((den - 1) / num)

def leadingBinaryPlace (num den : Nat) : Int :=
  let place : Int := (num.log2 : Int) - den.log2
  if den * twos place ≤ num * twos (-place) then place else place - 1

theorem digitCount_eq (n : Nat) : digitCount n = (Nat.toDigits 10 n).length := by
  simp [digitCount, ← String.length_toList, Nat.toList_repr]

theorem digitCount_pos (n : Nat) : 0 < digitCount n := by
  rw [digitCount_eq]
  exact Nat.length_toDigits_pos

theorem digitCount_le_iff {n k : Nat} (h : 0 < k) : digitCount n ≤ k ↔ n < tens k := by
  rw [digitCount_eq]
  exact Nat.length_toDigits_le_iff (by decide) h

end Calculator
