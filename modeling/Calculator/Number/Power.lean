/-!
# Powers with whole exponents

A fraction times a power of ten, or of two, stays a fraction of natural numbers: for a positive
exponent the numerator is multiplied, for a negative one the denominator. `tens e` is the factor
above the line and `tens (-e)` the one below it.
-/

namespace Calculator

/-- Ten to the power `e`; one for a negative exponent. -/
def tens (e : Int) : Nat := Nat.pow 10 e.toNat

def twos (e : Int) : Nat := Nat.pow 2 e.toNat

theorem tens_pos (e : Int) : 0 < tens e := Nat.pow_pos (by decide)

theorem twos_pos (e : Int) : 0 < twos e := Nat.pow_pos (by decide)

theorem tens_of_nonpos {e : Int} (h : e ≤ 0) : tens e = 1 := by
  simp [tens, Int.toNat_of_nonpos h]

theorem twos_of_nonpos {e : Int} (h : e ≤ 0) : twos e = 1 := by
  simp [twos, Int.toNat_of_nonpos h]

end Calculator
