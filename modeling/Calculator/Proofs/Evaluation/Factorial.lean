import Calculator.Evaluation.Function
import Calculator.Proofs.Number.HalfEven
import Mathlib.Data.Nat.Factorial.Basic

/-!
# Factorials

A factorial is computed for a float that is not below zero and lies within `epsilon` of a whole
number of at most 170; all others are invalid. The sign is checked without the tolerance, so below
zero nothing is accepted, however close it is. Within the tolerance the nearest whole number is the
only one, and the product up to it is right to a few units of the last place.
-/

namespace Calculator

theorem factorialOf_succ (n : Nat) : factorialOf (n + 1) = factorialOf n * Float.ofNat (n + 1) := by
  cases n with
  | zero => decide
  | succ n =>
    have hnext : 2 + n = n + 1 + 1 := by omega
    rw [factorialOf, factorialOf, Nat.add_sub_cancel, Nat.add_sub_cancel, List.range'_concat,
      List.foldl_append, Nat.one_mul, hnext]
    rfl

/-- The float is within `n` units of relative size `2 ^ -53` of a whole number; no unit is granted
up to 22, where the products still fit into a float. -/
def Binary.agrees (b : Binary) (n exact : Nat) : Bool :=
  (b.signed b.numerator - exact * b.denominator).natAbs * 2 ^ 53 ≤
    (if n ≤ 22 then 0 else n) * exact * b.denominator

/-- So many products from the `n`th on are finite and agree with the exact ones. -/
def productsAgree : Nat → Nat → Float → Nat → Bool
  | 0, _, _, _ => true
  | count + 1, n, product, exact =>
    product.isFinite && (Binary.ofFloat product).agrees n exact &&
      productsAgree count (n + 1) (product * Float.ofNat (n + 1)) ((n + 1) * exact)

theorem agrees_of_productsAgree {count n : Nat}
    (h : productsAgree count n (factorialOf n) n.factorial = true) {m : Nat} (hm : n ≤ m)
    (hlt : m < n + count) : (factorialOf m).isFinite = true ∧
      (Binary.ofFloat (factorialOf m)).agrees m m.factorial = true := by
  induction count generalizing n with
  | zero => omega
  | succ count ih =>
    rw [productsAgree, Bool.and_eq_true, Bool.and_eq_true] at h
    rcases hm.eq_or_lt with rfl | hnext
    · exact h.1
    · rw [← factorialOf_succ, ← Nat.factorial_succ] at h
      exact ih h.2 hnext (by omega)

namespace Binary

theorem cast_signed (b : Binary) (n : Nat) :
    ((b.signed n : Int) : ℚ) = signedValue b.negative n := by
  rw [signed, signedValue]
  cases b.negative <;> simp

theorem value_eq_div (b : Binary) : b.value = (b.signed b.numerator : Int) / b.denominator := by
  have hfraction := b.fraction_eq
  rw [cast_signed, value, magnitude, ← hfraction, signedValue, signedValue]
  cases b.negative
  · rfl
  · exact (neg_div _ _).symm

theorem abs_value_sub_natCast (b : Binary) (n : Nat) :
    |b.value - n| = ((b.signed b.numerator - n * b.denominator).natAbs : ℚ) / b.denominator := by
  have hden : (0 : ℚ) < b.denominator := by exact_mod_cast b.denominator_pos
  have hsub : b.value - n =
      ((b.signed b.numerator - n * b.denominator : Int) : ℚ) / b.denominator := by
    rw [value_eq_div, sub_eq_iff_eq_add, ← sub_eq_iff_eq_add']
    push_cast
    field_simp
    ring
  rw [hsub, abs_div, abs_of_pos hden, Nat.cast_natAbs, Int.cast_abs]

theorem isFarFrom_iff (b : Binary) (n : Nat) :
    b.isFarFrom n = true ↔ (ofFloat epsilon).value < |b.value - n| := by
  have hden : (0 : ℚ) < b.denominator := by exact_mod_cast b.denominator_pos
  have heps : (0 : ℚ) < (ofFloat epsilon).denominator := by
    exact_mod_cast (ofFloat epsilon).denominator_pos
  have hvalue : (ofFloat epsilon).value =
      (ofFloat epsilon).numerator / (ofFloat epsilon).denominator := by
    rw [value, fraction_eq]
    rfl
  rw [isFarFrom, abs_value_sub_natCast, hvalue, div_lt_div_iff₀ heps hden, decide_eq_true_iff]
  exact_mod_cast Iff.rfl

theorem agrees_iff (b : Binary) (n exact : Nat) : b.agrees n exact = true ↔
    |b.value - exact| ≤ (if n ≤ 22 then 0 else n : Nat) * exact * 2 ^ (-53 : Int) := by
  have hden : (0 : ℚ) < b.denominator := by exact_mod_cast b.denominator_pos
  have hunit : (2 : ℚ) ^ (-53 : Int) = 1 / 2 ^ 53 := by norm_num
  rw [agrees, decide_eq_true_iff, abs_value_sub_natCast, div_le_iff₀ hden, hunit, mul_one_div,
    div_mul_eq_mul_div, le_div_iff₀ (by positivity)]
  exact_mod_cast Iff.rfl

end Binary

variable {v : Float} {n : Nat} {span : Option Span}

/-- The float is the factorial of `n`: exactly up to 22, and finite and right up to `n` parts in
`2 ^ 53` above. -/
structure IsFactorialOf (n : Nat) (x : Float) : Prop where
  finite : x.isFinite = true
  exact : n ≤ 22 → (Binary.ofFloat x).value = n.factorial
  close : |(Binary.ofFloat x).value - n.factorial| ≤ n * n.factorial * 2 ^ (-53 : Int)

theorem isFactorialOf_factorialOf (hn : n ≤ maxFactorial) : IsFactorialOf n (factorialOf n) := by
  have hall : productsAgree (maxFactorial + 1) 0 (factorialOf 0) (Nat.factorial 0) = true := by
    decide +kernel
  obtain ⟨hfinite, hagrees⟩ := agrees_of_productsAgree hall n.zero_le (by omega)
  rw [Binary.agrees_iff] at hagrees
  have hunits : (0 : ℚ) ≤ n.factorial * 2 ^ (-53 : Int) := by positivity
  refine ⟨hfinite, fun hsmall => ?_, hagrees.trans ?_⟩
  · rw [if_pos hsmall, Nat.cast_zero, zero_mul, zero_mul] at hagrees
    exact sub_eq_zero.1 (abs_nonpos_iff.1 hagrees)
  · rw [mul_assoc, mul_assoc]
    refine mul_le_mul_of_nonneg_right ?_ hunits
    split
    · rw [Nat.cast_zero]
      exact Nat.cast_nonneg n
    · exact le_rfl

/-- The float is the whole number up to `epsilon`. -/
def IsAlmost (v : Float) (n : Nat) : Prop :=
  |(Binary.ofFloat v).value - n| ≤ (Binary.ofFloat epsilon).value

theorem ofFloat_epsilon : Binary.ofFloat epsilon = ⟨false, 7737125245533627, -86⟩ := by decide

theorem value_epsilon : (Binary.ofFloat epsilon).value = 7737125245533627 * 2 ^ (-86 : Int) := by
  rw [ofFloat_epsilon]
  rfl

theorem isFarFrom_eq_false_iff : (Binary.ofFloat v).isFarFrom n = false ↔ IsAlmost v n := by
  rw [← Bool.not_eq_true, Binary.isFarFrom_iff, not_lt]
  rfl

theorem value_of_zero_le (hv : v.isFinite = true) (hle : 0 ≤ v) :
    (Binary.ofFloat v).value = (Binary.ofFloat v).magnitude := by
  have hs := (zero_le_iff_signBit hv).1 hle
  rw [Binary.value, Binary.negative_ofFloat, signedValue]
  split
  · next h => rw [(Binary.magnitude_eq_zero_iff _).2 (hs h), neg_zero]
  · rfl

theorem round_of_zero_le (hv : v.isFinite = true) (hle : 0 ≤ v) : (Binary.ofFloat v).round =
    roundHalfEven (Binary.ofFloat v).numerator (Binary.ofFloat v).denominator := by
  have hs := (zero_le_iff_signBit hv).1 hle
  rw [Binary.round, Binary.signed, Binary.negative_ofFloat]
  split
  · next h =>
    have hzero : roundHalfEven (Binary.ofFloat v).numerator (Binary.ofFloat v).denominator = 0 := by
      rw [Binary.numerator, hs h, Nat.zero_mul]
      exact roundHalfEven_of_lt_half (Binary.denominator_pos _) (by simp)
    rw [hzero]
    rfl
  · rfl

theorem IsAlmost.roundHalfEven_eq (h : IsAlmost v n) (hv : v.isFinite = true) (hle : 0 ≤ v) :
    roundHalfEven (Binary.ofFloat v).numerator (Binary.ofFloat v).denominator = n := by
  rw [roundHalfEven_eq_iff (Binary.denominator_pos _), Binary.fraction_eq]
  rw [IsAlmost, value_of_zero_le hv hle, value_epsilon] at h
  exact isNearestEven_of_abs_lt (h.trans_lt (by norm_num))

theorem IsAlmost.zero_le (h : IsAlmost v n) (hv : v.isFinite = true) (hn : n = 0 → 0 ≤ v) :
    0 ≤ v := by
  by_cases hzero : n = 0
  · exact hn hzero
  · have hone : (1 : ℚ) ≤ n := by exact_mod_cast Nat.one_le_iff_ne_zero.2 hzero
    rw [IsAlmost, value_epsilon] at h
    rw [zero_le_iff_signBit hv]
    intro hs
    have hvalue : (Binary.ofFloat v).value = -(Binary.ofFloat v).magnitude := by
      rw [Binary.value, Binary.negative_ofFloat, hs]
      rfl
    have hlow := (abs_le.1 h).1
    have hnonneg := (Binary.ofFloat v).magnitude_nonneg
    norm_num at hlow
    linarith

/-- The float `epsilon` is slightly larger than `10 ^ -10`, and no other float lies between. -/
theorem magnitude_eq_epsilon (hlt : 10 ^ (-10 : Int) < (Binary.ofFloat v).magnitude)
    (hle : (Binary.ofFloat v).magnitude ≤ (Binary.ofFloat epsilon).value) :
    (Binary.ofFloat v).magnitude = (Binary.ofFloat epsilon).value := by
  obtain ⟨hs, -, hlow⟩ := fields_ofFloat v
  rw [value_epsilon] at hle ⊢
  rw [Binary.magnitude] at *
  generalize (Binary.ofFloat v).significand = s at *
  generalize (Binary.ofFloat v).exponent = e at *
  rcases lt_trichotomy e (-86) with hsmall | rfl | hlarge
  · have hbelow : (s : ℚ) * 2 ^ e < 2 ^ 53 * 2 ^ (-87 : Int) :=
      mul_lt_mul (by exact_mod_cast hs) (zpow_le_zpow_right₀ (by norm_num) (by omega))
        (zpow_pos two_pos _) (by positivity)
    norm_num at hbelow hlt
    linarith
  · have hupper : s ≤ 7737125245533627 := by
      exact_mod_cast le_of_mul_le_mul_right hle (zpow_pos two_pos _)
    have hlower : 7737125245533626 < s := by
      norm_num at hlt
      exact_mod_cast (by linarith : (7737125245533626 : ℚ) < s)
    rw [show s = 7737125245533627 by omega]
    rfl
  · have hnormal : 2 ^ 52 ≤ s := by
      by_contra hnot
      have := hlow (Nat.lt_of_not_le hnot)
      omega
    have habove : (2 : ℚ) ^ 52 * 2 ^ (-85 : Int) ≤ s * 2 ^ e :=
      mul_le_mul (by exact_mod_cast hnormal) (zpow_le_zpow_right₀ (by norm_num) (by omega))
        (zpow_pos two_pos _).le (Nat.cast_nonneg s)
    norm_num at habove hle
    linarith

/-- A float above a half has no places behind the 53rd one. -/
theorem exists_intCast_of_half_lt (h : 1 / 2 < (Binary.ofFloat v).magnitude) :
    ∃ k : Int, (Binary.ofFloat v).value * 2 ^ 53 = k := by
  obtain ⟨hs, -, -⟩ := fields_ofFloat v
  have hexponent : -53 ≤ (Binary.ofFloat v).exponent := by
    by_contra hnot
    have hbelow : (Binary.ofFloat v).magnitude ≤ 2 ^ 53 * 2 ^ (-54 : Int) :=
      mul_le_mul (by exact_mod_cast hs.le) (zpow_le_zpow_right₀ (by norm_num) (by omega))
        (zpow_pos two_pos _).le (by positivity)
    norm_num at hbelow h
    linarith
  obtain ⟨j, hj⟩ := Int.eq_ofNat_of_zero_le (by omega : 0 ≤ (Binary.ofFloat v).exponent + 53)
  have hscaled : (Binary.ofFloat v).magnitude * 2 ^ 53 =
      ((Binary.ofFloat v).significand * 2 ^ j : Nat) := by
    have hpower : (2 : ℚ) ^ (53 : Int) = 2 ^ 53 := zpow_natCast 2 53
    rw [Binary.magnitude, mul_assoc, ← hpower, ← zpow_add₀ two_ne_zero, hj]
    push_cast
    rfl
  refine ⟨(Binary.ofFloat v).signed ((Binary.ofFloat v).significand * 2 ^ j), ?_⟩
  rw [Binary.cast_signed, ← hscaled, Binary.value, signedValue, signedValue]
  split
  · exact neg_mul _ _
  · rfl

/-- Only `epsilon` itself tells the tolerance from `10 ^ -10`. -/
theorem isAlmost_iff : IsAlmost v n ↔ |(Binary.ofFloat v).value - n| ≤ 10 ^ (-10 : Int) ∨
    n = 0 ∧ |(Binary.ofFloat v).value| = (Binary.ofFloat epsilon).value := by
  constructor
  · intro h
    rw [IsAlmost] at h
    rcases Nat.eq_zero_or_pos n with rfl | hn
    · rw [Nat.cast_zero, sub_zero, Binary.abs_value] at h ⊢
      rcases le_or_gt (Binary.ofFloat v).magnitude (10 ^ (-10 : Int)) with hle | hgt
      · exact .inl hle
      · exact .inr ⟨rfl, magnitude_eq_epsilon hgt h⟩
    · have hone : (1 : ℚ) ≤ n := by exact_mod_cast hn
      rw [value_epsilon] at h
      have hhalf : 1 / 2 < (Binary.ofFloat v).magnitude := by
        have hlow := (abs_le.1 h).1
        rw [← Binary.abs_value]
        norm_num at hlow
        exact lt_of_lt_of_le (by linarith) (le_abs_self _)
      obtain ⟨k, hk⟩ := exists_intCast_of_half_lt hhalf
      have hscale : (0 : ℚ) < 2 ^ 53 := by norm_num
      have hunits : |((k - n * 2 ^ 53 : Int) : ℚ)| = |(Binary.ofFloat v).value - n| * 2 ^ 53 := by
        have hj : ((k - n * 2 ^ 53 : Int) : ℚ) = ((Binary.ofFloat v).value - n) * 2 ^ 53 := by
          rw [sub_mul, hk]
          push_cast
          rfl
        rw [hj, abs_mul, abs_of_pos hscale]
      have hfew : |k - n * 2 ^ 53| ≤ 900719 := by
        have hlt : |((k - n * 2 ^ 53 : Int) : ℚ)| < 900720 := by
          rw [hunits, ← lt_div_iff₀ hscale]
          exact h.trans_lt (by norm_num)
        have hint : |k - n * 2 ^ 53| < 900720 := by exact_mod_cast hlt
        omega
      have hfew' : |(Binary.ofFloat v).value - n| * 2 ^ 53 ≤ 900719 := by
        rw [← hunits]
        exact_mod_cast hfew
      rw [← le_div_iff₀ hscale] at hfew'
      exact .inl (hfew'.trans (by norm_num))
  · rintro (h | ⟨rfl, h⟩)
    · refine h.trans ?_
      rw [value_epsilon]
      norm_num
    · rw [IsAlmost, Nat.cast_zero, sub_zero]
      exact h.le

theorem factorial_of_lt_zero (h : v < 0) : factorial v span = failAt (.factorialDomain v) span :=
  if_pos h

theorem factorial_of_zero_le (hv : v.isFinite = true) (hle : 0 ≤ v)
    (hn : roundHalfEven (Binary.ofFloat v).numerator (Binary.ofFloat v).denominator = n) :
    factorial v span = if (Binary.ofFloat v).isFarFrom n then failAt (.factorialDomain v) span
      else if maxFactorial < n then failAt (.factorialLimit n) span else .ok (factorialOf n) := by
  rw [factorial, if_neg ((not_lt_zero_iff hv).2 hle), isNaN_of_isFinite hv, isInf_of_isFinite hv,
    if_neg Bool.false_ne_true, if_neg Bool.false_ne_true]
  simp only [round_of_zero_le hv hle, hn, Int.toNat_natCast, Nat.cast_lt]

theorem factorial_of_isAlmost (hv : v.isFinite = true) (hle : 0 ≤ v) (h : IsAlmost v n) :
    factorial v span =
      if maxFactorial < n then failAt (.factorialLimit n) span else .ok (factorialOf n) := by
  rw [factorial_of_zero_le hv hle (h.roundHalfEven_eq hv hle), isFarFrom_eq_false_iff.2 h,
    if_neg Bool.false_ne_true]

def IsInvalid (r : Except Failure Float) : Prop :=
  ∃ e : MathError, r = .error (.error e) ∧ e.stage = .evaluation ∧ e.kind = some .invalidOperation

theorem isInvalid_factorial (hv : v.isFinite = true)
    (h : ∀ n ≤ maxFactorial, IsAlmost v n → ¬0 ≤ v) : IsInvalid (factorial v span) := by
  by_cases hle : 0 ≤ v
  · rw [factorial_of_zero_le hv hle rfl]
    split
    · exact ⟨_, rfl, rfl, rfl⟩
    · next hnear =>
      rw [Bool.not_eq_true, isFarFrom_eq_false_iff] at hnear
      rw [if_pos (Nat.lt_of_not_le fun hn => h _ hn hnear hle)]
      exact ⟨_, rfl, rfl, rfl⟩
  · rw [factorial_of_lt_zero (not_not.1 (mt (not_lt_zero_iff hv).1 hle))]
    exact ⟨_, rfl, rfl, rfl⟩

/-- The factorial of a finite float is that of the whole number up to 170 which the float almost is,
and invalid if there is none. Only below zero almost is not enough. -/
theorem factorial_eq_ok_iff (hv : v.isFinite = true) (span : Option Span) :
    (∀ x, factorial v span = .ok x ↔
      ∃ n ≤ maxFactorial, IsAlmost v n ∧ (n = 0 → 0 ≤ v) ∧ x = factorialOf n) ∧
    ((∀ x, factorial v span ≠ .ok x) → IsInvalid (factorial v span)) ∧
    (∀ n, IsAlmost v n ↔ |(Binary.ofFloat v).value - n| ≤ 10 ^ (-10 : Int) ∨
      n = 0 ∧ |(Binary.ofFloat v).value| = (Binary.ofFloat epsilon).value) ∧
    ∀ n ≤ maxFactorial, IsFactorialOf n (factorialOf n) := by
  have hok : ∀ n ≤ maxFactorial, IsAlmost v n → (n = 0 → 0 ≤ v) →
      factorial v span = .ok (factorialOf n) := by
    intro n hn h hzero
    rw [factorial_of_isAlmost hv (h.zero_le hv hzero) h, if_neg (Nat.not_lt.2 hn)]
  have hnone : (∀ x, factorial v span ≠ .ok x) → IsInvalid (factorial v span) := fun h =>
    isInvalid_factorial hv fun n hn halmost hle => h _ (hok n hn halmost fun _ => hle)
  refine ⟨fun x => ⟨fun hx => ?_, ?_⟩, hnone, fun n => isAlmost_iff,
    fun n hn => isFactorialOf_factorialOf hn⟩
  · by_contra hnot
    obtain ⟨e, he, -⟩ : IsInvalid (factorial v span) := by
      refine isInvalid_factorial hv fun n hn halmost hle => hnot ⟨n, hn, halmost, fun _ => hle, ?_⟩
      exact Except.ok.inj (hx.symm.trans (hok n hn halmost fun _ => hle))
    rw [he] at hx
    cases hx
  · rintro ⟨n, hn, halmost, hzero, rfl⟩
    exact hok n hn halmost hzero

/-- `-1e-11` is almost zero and has no factorial; on the other side of zero, `1e-11` has one. -/
theorem factorial_eq_ok_iff_zero :
    IsAlmost (-1e-11) 0 ∧ (∀ x, factorial (-1e-11) none ≠ .ok x) ∧
      factorial 1e-11 none = .ok 1 := by
  have hv : (-1e-11 : Float).isFinite = true := by decide
  have hnegative : ¬(0 : Float) ≤ -1e-11 := by decide
  have halmost : IsAlmost (-1e-11) 0 := isFarFrom_eq_false_iff.1 (by decide)
  have halmost' : IsAlmost 1e-11 0 := isFarFrom_eq_false_iff.1 (by decide)
  refine ⟨halmost, fun x hx => ?_, ?_⟩
  · obtain ⟨n, -, h, hzero, -⟩ := ((factorial_eq_ok_iff hv none).1 x).1 hx
    exact hnegative (h.zero_le hv hzero)
  · exact ((factorial_eq_ok_iff (by decide) none).1 1).2
      ⟨0, by decide, halmost', fun _ => by decide, by decide⟩

end Calculator
