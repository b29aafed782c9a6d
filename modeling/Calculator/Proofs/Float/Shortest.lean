import Calculator.Proofs.Float.Close
import Calculator.Proofs.Number.Cut
import Calculator.Proofs.Number.Leading

/-!
# The decimal under which a float is written

Seventeen digits suffice for every float, so one of the candidates is always found. The decimal that
is found is a multiple of every power of ten of which some decimal that reads as the float is one:
a float that was read from a few places is written with no more places.
-/

namespace Calculator

variable {v : Float} {d : Decimal}

theorem Decimal.toFloat_of_between {lower upper : Decimal} (hl : lower.toFloat = v)
    (hu : upper.toFloat = v) (hn : d.negative = signBit v) (hlo : lower.magnitude ≤ d.magnitude)
    (hhi : d.magnitude ≤ upper.magnitude) : d.toFloat = v := by
  have hlower := magnitudeBits_mono hlo
  have hupper := magnitudeBits_mono hhi
  rw [hl] at hlower
  rw [hu] at hupper
  apply eq_of_bits
  · rw [signBit_toFloat, hn]
  · omega

theorem Binary.magnitude_toDecimal_eq (b : Binary) : b.toDecimal.magnitude = b.magnitude :=
  b.magnitude_toDecimal.1.trans b.fraction_eq

theorem Binary.negative_ofFloat (v : Float) : (ofFloat v).negative = signBit v := by
  rw [ofFloat_eq]

/-- The candidates for a float whose last digit stands at `place`. -/
def candidates (v : Float) (place : Int) : List Decimal :=
  gridNeighbours (Binary.ofFloat v).negative (Binary.ofFloat v).numerator
    (Binary.ofFloat v).denominator place

theorem scaled_tens_neg (num den : Nat) (e : Int) :
    ((num * tens (-e) : Nat) : ℚ) / (den * tens e : Nat) = num / den * 10 ^ (-e) := by
  rw [← tens_div_tens, neg_neg, Nat.cast_mul, Nat.cast_mul, mul_div_mul_comm]

/-- The fraction that is rounded for a candidate is the float in units of the place. -/
theorem scaled_ofFloat (v : Float) (place : Int) :
    (((Binary.ofFloat v).numerator * tens (-place) : Nat) : ℚ) /
      ((Binary.ofFloat v).denominator * tens place : Nat) =
      (Binary.ofFloat v).magnitude * 10 ^ (-place) := by
  rw [scaled_tens_neg, Binary.fraction_eq, Binary.magnitude]

/-- The candidates are the multiples of the unit on both sides of the float. -/
theorem mem_candidates {place : Int} : d ∈ candidates v place ↔
    d = ⟨signBit v, ⌊(Binary.ofFloat v).magnitude * 10 ^ (-place)⌋₊, place⟩ ∨
      d = ⟨signBit v, ⌊(Binary.ofFloat v).magnitude * 10 ^ (-place)⌋₊ + 1, place⟩ := by
  rw [← scaled_ofFloat, Nat.floor_div_eq_div, ← Binary.negative_ofFloat]
  simp only [candidates, gridNeighbours, roundHalfEven]
  split <;> simp [or_comm]

/-- If a multiple of a unit reads as a float, one of the two around the float does. -/
theorem exists_mem_candidates (hv : v.isFinite = true) (hd : d.toFloat = v) :
    ∃ d' ∈ candidates v d.exponent, d'.toFloat = v := by
  have hunit : (0 : ℚ) < 10 ^ d.exponent := zpow_pos (by norm_num) _
  have hexact := Binary.toFloat_toDecimal hv
  have hvalue := (Binary.ofFloat v).magnitude_toDecimal_eq
  have hscale : (Binary.ofFloat v).magnitude =
      (Binary.ofFloat v).magnitude * 10 ^ (-d.exponent) * 10 ^ d.exponent := by
    rw [mul_assoc, ← zpow_add₀ (by norm_num), neg_add_cancel, zpow_zero, mul_one]
  have hnonneg : 0 ≤ (Binary.ofFloat v).magnitude * 10 ^ (-d.exponent) := by
    unfold Binary.magnitude
    positivity
  have hbelow := Nat.floor_le hnonneg
  have habove := Nat.lt_floor_add_one ((Binary.ofFloat v).magnitude * 10 ^ (-d.exponent))
  rcases Nat.lt_or_ge ⌊(Binary.ofFloat v).magnitude * 10 ^ (-d.exponent)⌋₊ d.coefficient with
    hlt | hge
  · refine ⟨_, mem_candidates.2 (.inr rfl), Decimal.toFloat_of_between hexact hd rfl ?_ ?_⟩
    · rw [hvalue]
      refine hscale.trans_le (mul_le_mul_of_nonneg_right ?_ hunit.le)
      exact_mod_cast habove.le
    · exact mul_le_mul_of_nonneg_right (by exact_mod_cast hlt) hunit.le
  · refine ⟨_, mem_candidates.2 (.inl rfl), Decimal.toFloat_of_between hd hexact rfl ?_ ?_⟩
    · exact mul_le_mul_of_nonneg_right (by exact_mod_cast hge) hunit.le
    · rw [hvalue]
      exact (mul_le_mul_of_nonneg_right hbelow hunit.le).trans_eq hscale.symm

def leadingPlaceOf (v : Float) : Int :=
  leadingDecimalPlace (Binary.ofFloat v).numerator (Binary.ofFloat v).denominator

theorem leadingPlaceOf_bracket (hs : (Binary.ofFloat v).significand ≠ 0) :
    (10 : ℚ) ^ leadingPlaceOf v ≤ (Binary.ofFloat v).magnitude ∧
      (Binary.ofFloat v).magnitude < 10 ^ (leadingPlaceOf v + 1) := by
  have hnum : 0 < (Binary.ofFloat v).numerator :=
    Nat.mul_pos (Nat.pos_of_ne_zero hs) (twos_pos _)
  have hbracket := leadingDecimalPlace_bracket hnum (Binary.ofFloat v).denominator_pos
  rwa [Binary.fraction_eq] at hbracket

/-- If there is a candidate with `n + 1` digits, the shortest decimal is the first candidate that is
found with as many digits or fewer. -/
theorem exists_shortestDecimal {n : Nat} (hn : n < 17)
    (hd : ∃ d ∈ candidates v (leadingPlaceOf v - n), d.toFloat = v) :
    ∃ k ≤ n, ∃ d', (candidates v (leadingPlaceOf v - k)).find? (·.denotes v) = some d' ∧
      shortestDecimal v = d'.withoutTrailingZeros := by
  have hsplit : List.range 17 = List.range (n + 1) ++ (List.range 17).drop (n + 1) := by
    conv_lhs => rw [← List.take_append_drop (n + 1) (List.range 17), List.take_range,
      Nat.min_eq_left (by omega)]
  obtain ⟨d, hmem, hd⟩ := hd
  unfold shortestDecimal
  change ∃ k ≤ n, ∃ d', _ ∧ ((((List.range 17).flatMap fun k : Nat =>
    candidates v (leadingPlaceOf v - k)).find? (·.denotes v)).getD _).withoutTrailingZeros = _
  rw [hsplit, List.flatMap_append, List.find?_append, List.find?_flatMap]
  cases hfind : (List.range (n + 1)).findSome? fun k : Nat =>
      (candidates v (leadingPlaceOf v - k)).find? (·.denotes v) with
  | none =>
    rw [List.findSome?_eq_none_iff] at hfind
    have hnone := hfind n (List.mem_range.2 (Nat.lt_succ_self n))
    exact absurd (Decimal.denotes_iff.2 hd) (List.find?_eq_none.1 hnone d hmem)
  | some d' =>
    obtain ⟨k, hk, hfound⟩ := List.exists_of_findSome?_eq_some hfind
    exact ⟨k, Nat.le_of_lt_succ (List.mem_range.1 hk), d', hfound, rfl⟩

/-- Seventeen digits suffice: the nearest candidate reads as the float. -/
theorem exists_mem_candidates_seventeen (hv : v.isFinite = true)
    (hs : (Binary.ofFloat v).significand ≠ 0) :
    ∃ d ∈ candidates v (leadingPlaceOf v - (16 : Nat)), d.toFloat = v := by
  refine ⟨_, List.mem_cons_self, eq_of_bits ?_ ?_⟩
  · rw [Decimal.signBit_toFloat, Binary.negative_ofFloat]
  · rw [Decimal.toFloat_eq, floatNearest, magnitudeBits_floatOfBits (nearestBits_le _ _)]
    apply nearestBits_of_close hv (Nat.pos_of_ne_zero hs) (Decimal.denominator_pos _)
    rw [Decimal.fraction_eq]
    dsimp only
    generalize hp : leadingPlaceOf v - (16 : Nat) = place
    have hunit : (0 : ℚ) < 10 ^ place := zpow_pos (by norm_num) _
    have hround := abs_roundHalfEven_sub_le ((Binary.ofFloat v).numerator * tens (-place))
      (Nat.mul_pos (Binary.ofFloat v).denominator_pos (tens_pos place))
    rw [scaled_ofFloat] at hround
    generalize roundHalfEven _ _ = n at *
    have hscale : (n : ℚ) * 10 ^ place - (Binary.ofFloat v).magnitude =
        (n - (Binary.ofFloat v).magnitude * 10 ^ (-place)) * 10 ^ place := by
      rw [sub_mul, mul_assoc, ← zpow_add₀ (by norm_num), neg_add_cancel, zpow_zero,
        mul_one]
    calc |(n : ℚ) * 10 ^ place - (Binary.ofFloat v).magnitude| * (2 * 10 ^ 16)
        = |(n : ℚ) - (Binary.ofFloat v).magnitude * 10 ^ (-place)| * 10 ^ place *
            (2 * 10 ^ 16) := by
          rw [hscale, abs_mul, abs_of_pos hunit]
      _ ≤ 1 / 2 * 10 ^ place * (2 * 10 ^ 16) := by gcongr
      _ = 10 ^ (place + (16 : Nat)) := by
          rw [zpow_add₀ (by norm_num), zpow_natCast]
          ring
      _ = 10 ^ leadingPlaceOf v := by rw [← hp, sub_add_cancel]
      _ ≤ (Binary.ofFloat v).magnitude := (leadingPlaceOf_bracket hs).1

theorem Decimal.magnitude_ofFloat (hs : (Binary.ofFloat v).significand ≠ 0) :
    (ofFloat v).magnitude = (shortestDecimal v).magnitude := by
  have hzero : (Binary.ofFloat v).isZero = false := beq_false_of_ne hs
  simp only [ofFloat, hzero, Bool.false_eq_true, if_false]
  split
  · next h => exact magnitude_tenths h.1
  · rfl

theorem Decimal.magnitude_ofFloat_of_zero (hs : (Binary.ofFloat v).significand = 0) :
    (ofFloat v).magnitude = 0 := by
  have hzero : (Binary.ofFloat v).isZero = true := beq_iff_eq.2 hs
  simp [ofFloat, hzero, magnitude]

theorem onGrid_ofFloat_of_candidate (hs : (Binary.ofFloat v).significand ≠ 0) {n : Nat}
    (hn : n < 17) (hd : ∃ d ∈ candidates v (leadingPlaceOf v - n), d.toFloat = v) :
    (Decimal.ofFloat v).OnGrid (leadingPlaceOf v - n) := by
  obtain ⟨k, hk, d', hfound, hshortest⟩ := exists_shortestDecimal hn hd
  have hexponent : d'.exponent = leadingPlaceOf v - k := by
    rcases mem_candidates.1 (List.mem_of_find?_eq_some hfound) with rfl | rfl <;> rfl
  obtain ⟨c, hc⟩ : d'.OnGrid (leadingPlaceOf v - n) :=
    Decimal.onGrid_of_le_exponent (by omega)
  refine ⟨c, ?_⟩
  rw [Decimal.magnitude_ofFloat hs, hshortest, d'.magnitude_withoutTrailingZeros.1, hc]

theorem smallest_unit_bounds : 49 * (10 : ℚ) ^ (-325 : Int) < 2 ^ (-1074 : Int) ∧
    (2 : ℚ) ^ (-1074 : Int) < 5 * 10 ^ (-324 : Int) := by
  have hlo : 49 * 2 ^ 1074 < 10 ^ 325 := by decide +kernel
  have hhi : 10 ^ 324 < 5 * 2 ^ 1074 := by decide +kernel
  rw [zpow_neg, zpow_neg, zpow_neg, ← div_eq_mul_inv, ← div_eq_mul_inv, inv_eq_one_div]
  constructor
  · rw [div_lt_div_iff₀ (by positivity) (by positivity), one_mul]
    exact_mod_cast hlo
  · rw [div_lt_div_iff₀ (by positivity) (by positivity), one_mul]
    exact_mod_cast hhi

/-- Of the multiples of the smallest unit with few digits, only twice the unit lies right below a
power of ten. -/
theorem leading_lt_of_smallest_unit {s : Nat} {L : Int} (hs : s ≠ 0) (hsmall : s < 19)
    (hbelow : (s : ℚ) * 2 ^ (-1074 : Int) < 10 ^ (L + 1))
    (hnext : (10 : ℚ) ^ (L + 1) < s * 2 ^ (-1074 : Int) + 2 ^ (-1074 : Int)) :
    19 / 2 * 10 ^ L < (s : ℚ) * 2 ^ (-1074 : Int) := by
  have hten : (10 : ℚ) ≠ 0 := by norm_num
  have hunit : (0 : ℚ) < 10 ^ (-325 : Int) := zpow_pos (by norm_num) _
  obtain ⟨hlo, hhi⟩ := smallest_unit_bounds
  rw [show (-324 : Int) = -325 + 1 by norm_num, zpow_add_one₀ hten] at hhi
  have hone : (1 : ℚ) ≤ s := by exact_mod_cast Nat.pos_of_ne_zero hs
  have hsq : (s : ℚ) + 1 ≤ 19 := by exact_mod_cast hsmall
  have hL : L = -324 := by
    have hup : (10 : ℚ) ^ (L + 1) < 10 ^ (-325 + 1 + 1 + 1 : Int) := by
      rw [zpow_add_one₀ hten (-325 + 1 + 1), zpow_add_one₀ hten (-325 + 1),
        zpow_add_one₀ hten (-325)]
      nlinarith
    have hdown : (10 : ℚ) ^ (-325 + 1 : Int) < 10 ^ (L + 1) := by
      rw [zpow_add_one₀ hten (-325)]
      nlinarith
    have hlt := (zpow_lt_zpow_iff_right₀ (by norm_num : (1 : ℚ) < 10)).1 hup
    have hgt := (zpow_lt_zpow_iff_right₀ (by norm_num : (1 : ℚ) < 10)).1 hdown
    omega
  rw [hL, show (-324 : Int) = -325 + 1 by norm_num] at hnext ⊢
  rw [zpow_add_one₀ hten (-325 + 1), zpow_add_one₀ hten (-325)] at hnext
  rw [zpow_add_one₀ hten (-325)]
  have htwo : (2 : ℚ) ≤ s := by
    have hlt : (1 : ℚ) < s := by nlinarith
    exact_mod_cast hlt
  nlinarith

/-- If there is a power of ten between a float and the next one, it is the first above the float,
and the float is nearer to it than to the multiple of the leading unit before it. -/
theorem leading_lt_of_power_before_next {place : Int} (hplace : leadingPlaceOf v < place)
    (hs : (Binary.ofFloat v).significand ≠ 0)
    (hnext : (10 : ℚ) ^ place < (Binary.ofFloat v).magnitude + 2 ^ (Binary.ofFloat v).exponent) :
    place = leadingPlaceOf v + 1 ∧
      19 / 2 * 10 ^ leadingPlaceOf v < (Binary.ofFloat v).magnitude := by
  have hten : (10 : ℚ) ≠ 0 := by norm_num
  have hbelow := (leadingPlaceOf_bracket hs).2
  obtain ⟨-, -, hlow⟩ := fields_ofFloat v
  rw [Binary.magnitude] at hnext hbelow ⊢
  generalize (Binary.ofFloat v).significand = s at *
  generalize (Binary.ofFloat v).exponent = e at *
  generalize leadingPlaceOf v = L at *
  have hunit : (0 : ℚ) < 2 ^ e := zpow_pos two_pos e
  have hone : (1 : ℚ) ≤ s := by exact_mod_cast Nat.pos_of_ne_zero hs
  obtain rfl : place = L + 1 := by
    have hdouble : (10 : ℚ) ^ place < 10 ^ (L + 1 + 1) := by
      rw [zpow_add_one₀ hten (L + 1)]
      nlinarith
    have hlt := (zpow_lt_zpow_iff_right₀ (by norm_num : (1 : ℚ) < 10)).1 hdouble
    omega
  refine ⟨rfl, ?_⟩
  rcases Nat.lt_or_ge s 19 with hsmall | hlarge
  · obtain rfl : e = -1074 := hlow (by omega)
    exact leading_lt_of_smallest_unit hs hsmall hbelow hnext
  · have hlargeq : (19 : ℚ) ≤ s := by exact_mod_cast hlarge
    rw [zpow_add_one₀ hten] at hnext
    nlinarith

/-- A float right below a power of ten that reads as it is written with one digit. -/
theorem onGrid_ofFloat_of_power (hv : v.isFinite = true) (hs : (Binary.ofFloat v).significand ≠ 0)
    {place : Int} (hplace : leadingPlaceOf v < place) (hd : d.toFloat = v)
    (hle : (10 : ℚ) ^ place ≤ d.magnitude) : (Decimal.ofFloat v).OnGrid place := by
  obtain ⟨hnextPlace, hclose⟩ := leading_lt_of_power_before_next hplace hs
    (hle.trans_lt (Decimal.magnitude_lt_next hv hd))
  have hbelow := (leadingPlaceOf_bracket hs).2
  have hunit : (0 : ℚ) < 10 ^ leadingPlaceOf v := zpow_pos (by norm_num) _
  have hpower : (10 : ℚ) ^ (leadingPlaceOf v + 1) = (10 : Nat) * 10 ^ leadingPlaceOf v := by
    rw [zpow_add_one₀ (by norm_num), mul_comm, Nat.cast_ofNat]
  rw [hnextPlace, hpower] at hle
  have hround : roundHalfEven ((Binary.ofFloat v).numerator * tens (-leadingPlaceOf v))
      ((Binary.ofFloat v).denominator * tens (leadingPlaceOf v)) = 10 := by
    apply roundHalfEven_of_abs_lt (Nat.mul_pos (Binary.ofFloat v).denominator_pos (tens_pos _))
    rw [scaled_ofFloat, zpow_neg, ← div_eq_mul_inv, abs_lt]
    have hlo := (lt_div_iff₀ hunit).2 hclose
    have hhi := (div_lt_iff₀ hunit).2 (hbelow.trans_eq hpower)
    constructor
    · push_cast
      linarith
    · linarith
  have hfirst : Decimal.toFloat ⟨signBit v, 10, leadingPlaceOf v⟩ = v := by
    refine Decimal.toFloat_of_between (Binary.toFloat_toDecimal hv) hd rfl ?_ hle
    rw [Binary.magnitude_toDecimal_eq]
    exact hbelow.le.trans_eq hpower
  obtain ⟨rest, hrest⟩ : ∃ rest, candidates v (leadingPlaceOf v - (0 : Nat)) =
      ⟨signBit v, 10, leadingPlaceOf v⟩ :: rest := by
    rw [Nat.cast_zero, sub_zero]
    simp only [candidates, gridNeighbours, hround, Binary.negative_ofFloat]
    exact ⟨_, rfl⟩
  obtain ⟨k, hk, d', hfound, hshortest⟩ := exists_shortestDecimal (n := 0) (by norm_num)
    ⟨_, hrest ▸ List.mem_cons_self, hfirst⟩
  obtain rfl : k = 0 := Nat.le_zero.1 hk
  rw [hrest, List.find?_cons_of_pos (by exact Decimal.denotes_iff.2 hfirst),
    Option.some.injEq] at hfound
  refine ⟨1, ?_⟩
  rw [Decimal.magnitude_ofFloat hs, hshortest, (Decimal.magnitude_withoutTrailingZeros _).1,
    ← hfound, hnextPlace, hpower, Nat.cast_one, one_mul]
  rfl

theorem Decimal.magnitudeBits_toFloat_of_zero (h : d.coefficient = 0) :
    magnitudeBits d.toFloat = 0 := by
  rw [toFloat, if_pos (.inl h), magnitudeBits_floatOfBits (Nat.zero_le _)]

theorem significand_of_toFloat (hd : d.toFloat = v) (h : d.coefficient = 0) :
    (Binary.ofFloat v).significand = 0 := by
  have hbits := Decimal.magnitudeBits_toFloat_of_zero h
  have hfields := magnitudeBits_eq_fields v
  rw [hd] at hbits
  omega

theorem onGrid_ofFloat_exponent (hv : v.isFinite = true) (hd : d.toFloat = v) :
    (Decimal.ofFloat v).OnGrid d.exponent := by
  by_cases hs : (Binary.ofFloat v).significand = 0
  · exact ⟨0, by rw [Decimal.magnitude_ofFloat_of_zero hs, Nat.cast_zero, zero_mul]⟩
  rcases Int.lt_or_le (leadingPlaceOf v) d.exponent with hlarge | hsmall
  · have hcoefficient : d.coefficient ≠ 0 := fun h => hs (significand_of_toFloat hd h)
    refine onGrid_ofFloat_of_power hv hs hlarge hd (le_mul_of_one_le_left ?_ ?_)
    · exact (zpow_pos (by norm_num) _).le
    · exact_mod_cast Nat.one_le_iff_ne_zero.2 hcoefficient
  · obtain ⟨n, hn⟩ : ∃ n : Nat, d.exponent = leadingPlaceOf v - n :=
      ⟨(leadingPlaceOf v - d.exponent).toNat, by omega⟩
    rcases Nat.lt_or_ge n 17 with hlt | hge
    · have hcandidate := exists_mem_candidates hv hd
      rw [hn] at hcandidate ⊢
      exact onGrid_ofFloat_of_candidate hs hlt hcandidate
    · refine Decimal.OnGrid.mono (onGrid_ofFloat_of_candidate hs (by norm_num)
        (exists_mem_candidates_seventeen hv hs)) ?_
      push_cast
      omega

/-- A float as which a multiple of a unit reads is written as a multiple of this unit. -/
theorem Decimal.OnGrid.ofFloat {place : Int} (h : d.OnGrid place) (hv : v.isFinite = true)
    (hd : d.toFloat = v) : (Decimal.ofFloat v).OnGrid place := by
  obtain ⟨n, hn⟩ := h
  have hread : Decimal.toFloat ⟨d.negative, n, place⟩ = v := by
    rw [← hd]
    exact Decimal.toFloat_congr rfl hn.symm
  exact onGrid_ofFloat_exponent hv hread

end Calculator
