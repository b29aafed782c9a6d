import Calculator.Proofs.Float.Shortest

/-!
# Half a unit around a float

What is read as a float differs from it by half a unit in its last place at most. So a float other
than zero is more than half of what is read as it, and a whole float that is written without an
exponent is written exactly.
-/

namespace Calculator

variable {v : Float} {d : Decimal}

theorem abs_sub_le_half_unit (hv : v.isFinite = true) {num den : Nat} (hd : 0 < den)
    (h : nearestBits num den = magnitudeBits v) :
    |(num : ℚ) / den - (Binary.ofFloat v).magnitude| ≤ 2 ^ (Binary.ofFloat v).exponent / 2 := by
  have hfin := (isFinite_iff v).1 hv
  have hbits := magnitudeBits_eq_fields v
  obtain ⟨hs, he, hlow⟩ := fields_ofFloat v
  rw [Binary.magnitude]
  generalize (Binary.ofFloat v).significand = s at *
  generalize (Binary.ofFloat v).exponent = e at *
  rcases Nat.eq_zero_or_pos num with rfl | hn
  · rw [nearestBits, if_pos rfl] at h
    obtain rfl : s = 0 := by omega
    simp only [Nat.cast_zero, zero_div, zero_mul, sub_zero, abs_zero]
    positivity
  · have hmax := significandOf_le hn hd
    have hmin := le_significandOf hn hd
    have hround := abs_roundHalfEven_sub_le (num * twos (-unitOf ((num : ℚ) / den)))
      (Nat.mul_pos hd (twos_pos (unitOf ((num : ℚ) / den))))
    have hsmallest : -1074 ≤ unitOf ((num : ℚ) / den) := le_max_right _ _
    rw [nearestBits_eq hn hd] at h
    change |(significandOf num den : ℚ) - _| ≤ _ at hround
    change min (_ * 2 ^ 52 + significandOf num den) _ = _ at h
    rw [scaled_twos_neg] at hround
    generalize unitOf ((num : ℚ) / den) = u at *
    generalize significandOf num den = n at *
    have hunit : (0 : ℚ) < 2 ^ u := zpow_pos two_pos u
    have hclose : |(num : ℚ) / den - n * 2 ^ u| ≤ 2 ^ u / 2 := by
      have hscale : (num : ℚ) / den - n * 2 ^ u = (num / den * 2 ^ (-u) - n) * 2 ^ u := by
        rw [sub_mul, mul_assoc, ← zpow_add₀ two_ne_zero, neg_add_cancel, zpow_zero, mul_one]
      rw [hscale, abs_mul, abs_of_pos hunit, abs_sub_comm]
      linarith [mul_le_mul_of_nonneg_right hround hunit.le]
    -- the float has the unit to which the fraction is rounded, or one binade more after a carry
    have hfields : u = e ∧ n = s ∨ u + 1 = e ∧ n = 2 ^ 53 ∧ s = 2 ^ 52 := by omega
    rcases hfields with ⟨rfl, rfl⟩ | ⟨rfl, rfl, rfl⟩
    · exact hclose
    · have hcarry : ((2 ^ 52 : Nat) : ℚ) * 2 ^ (u + 1) = (2 ^ 53 : Nat) * 2 ^ u := by
        rw [zpow_add_one₀ two_ne_zero]
        push_cast
        ring
      rw [hcarry, zpow_add_one₀ two_ne_zero]
      linarith

/-- A decimal that reads as a float is no farther from it than half a unit. -/
theorem Decimal.abs_magnitude_sub_ofFloat_le (hv : v.isFinite = true) (hd : d.toFloat = v) :
    |d.magnitude - (Binary.ofFloat v).magnitude| ≤ 2 ^ (Binary.ofFloat v).exponent / 2 := by
  have hbits : nearestBits d.numerator d.denominator = magnitudeBits v := by
    rw [← hd, toFloat_eq, floatNearest, magnitudeBits_floatOfBits (nearestBits_le _ _)]
  have hclose := abs_sub_le_half_unit hv d.denominator_pos hbits
  rwa [fraction_eq] at hclose

theorem unit_le_magnitude (hs : (Binary.ofFloat v).significand ≠ 0) :
    2 ^ (Binary.ofFloat v).exponent ≤ (Binary.ofFloat v).magnitude := by
  refine le_mul_of_one_le_left (zpow_pos two_pos _).le ?_
  exact_mod_cast Nat.one_le_iff_ne_zero.2 hs

/-- A float other than zero is more than half of every decimal that reads as it. -/
theorem Decimal.magnitude_lt_double (hv : v.isFinite = true) (hd : d.toFloat = v)
    (hs : (Binary.ofFloat v).significand ≠ 0) :
    d.magnitude < 2 * (Binary.ofFloat v).magnitude := by
  have hclose := (abs_le.1 (abs_magnitude_sub_ofFloat_le hv hd)).2
  have hunit : (0 : ℚ) < 2 ^ (Binary.ofFloat v).exponent := zpow_pos two_pos _
  have hle := unit_le_magnitude hs
  linarith

theorem unit_lt_of_magnitude_lt (hv : v.isFinite = true) (hd : d.toFloat = v) {place : Int}
    (hplace : -323 ≤ place) (hlt : d.magnitude < 10 ^ 15 * 10 ^ place) :
    (2 : ℚ) ^ (Binary.ofFloat v).exponent < 10 ^ place := by
  have hten : (0 : ℚ) < 10 ^ place := zpow_pos (by norm_num) _
  rcases Nat.lt_or_ge (Binary.ofFloat v).significand (2 ^ 52) with hsmall | hlarge
  · obtain ⟨-, -, hlow⟩ := fields_ofFloat v
    calc (2 : ℚ) ^ (Binary.ofFloat v).exponent = 2 ^ (-1074 : Int) := by rw [hlow hsmall]
      _ < 5 * 10 ^ (-324 : Int) := smallest_unit_bounds.2
      _ ≤ 10 ^ (-323 : Int) := by
        rw [show (-323 : Int) = -324 + 1 by norm_num, zpow_add_one₀ (by norm_num)]
        have hpos : (0 : ℚ) < 10 ^ (-324 : Int) := zpow_pos (by norm_num) _
        linarith
      _ ≤ 10 ^ place := zpow_le_zpow_right₀ (by norm_num) hplace
  · have hclose := (abs_le.1 (Decimal.abs_magnitude_sub_ofFloat_le hv hd)).1
    have hunit : (0 : ℚ) < 2 ^ (Binary.ofFloat v).exponent := zpow_pos two_pos _
    have hdigits : 2 ^ 52 * 2 ^ (Binary.ofFloat v).exponent ≤ (Binary.ofFloat v).magnitude :=
      mul_le_mul_of_nonneg_right (by exact_mod_cast hlarge) hunit.le
    norm_num at hlt hdigits
    linarith

theorem Binary.cast_quotient {b : Binary} (h : b.isWhole = true) :
    ((b.numerator / b.denominator : Nat) : ℚ) = b.magnitude := by
  have hden : (b.denominator : ℚ) ≠ 0 := by exact_mod_cast b.denominator_pos.ne'
  rw [Nat.cast_div (Nat.dvd_of_mod_eq_zero (beq_iff_eq.1 h)) hden, b.fraction_eq, magnitude]

theorem Binary.isWhole_of_exponent_nonneg {b : Binary} (h : 0 ≤ b.exponent) : b.isWhole = true := by
  rw [isWhole, denominator, twos_of_nonpos (by omega), Nat.mod_one, beq_self_eq_true]

theorem Binary.isWhole_of_significand {b : Binary} (h : b.significand = 0) : b.isWhole = true := by
  rw [isWhole, numerator, h, Nat.zero_mul, Nat.zero_mod, beq_self_eq_true]

theorem toFloat_whole (hv : v.isFinite = true) {n : Nat}
    (hn : (Binary.ofFloat v).magnitude = n) : Decimal.toFloat ⟨signBit v, n, 0⟩ = v := by
  refine Eq.trans (Decimal.toFloat_congr ?_ ?_) (Binary.toFloat_toDecimal hv)
  · rw [(Binary.ofFloat v).magnitude_toDecimal.2, Binary.negative_ofFloat]
  · rw [(Binary.ofFloat v).magnitude_toDecimal_eq, hn, Decimal.magnitude, zpow_zero, mul_one]

/-- The first candidate at the ones for a whole float is its exact value. -/
theorem candidates_ones {n : Nat} (hn : (Binary.ofFloat v).magnitude = n) :
    ∃ rest, candidates v 0 = ⟨signBit v, n, 0⟩ :: rest := by
  have hexact : roundHalfEven ((Binary.ofFloat v).numerator * tens (-0))
      ((Binary.ofFloat v).denominator * tens 0) = n := by
    apply roundHalfEven_of_eq (Nat.mul_pos (Binary.ofFloat v).denominator_pos (tens_pos _))
    rw [scaled_ofFloat, hn, neg_zero, zpow_zero, mul_one]
  simp only [candidates, gridNeighbours, hexact, Binary.negative_ofFloat]
  exact ⟨_, rfl⟩

/-- A whole float below `10 ^ 16` is as large as any multiple of ten that reads as it. -/
theorem eq_of_multiple_of_ten (hv : v.isFinite = true) {m n : Nat}
    (hn : (Binary.ofFloat v).magnitude = n) (hlt : n < 10 ^ 16)
    (hd : d.toFloat = v) (hm : d.magnitude = (m * 10 : Nat)) : m * 10 = n := by
  have hclose := Decimal.abs_magnitude_sub_ofFloat_le hv hd
  obtain ⟨-, -, hlow⟩ := fields_ofFloat v
  rw [hm, hn] at hclose
  rcases Int.lt_or_le 0 (Binary.ofFloat v).exponent with hpos | hneg
  · -- 53 binary digits leave room for one more only
    have hlarge : 2 ^ 52 ≤ (Binary.ofFloat v).significand := by
      by_contra hsmall
      rw [hlow (not_le.1 hsmall)] at hpos
      omega
    obtain ⟨k, hk⟩ : ∃ k : Nat, (Binary.ofFloat v).exponent = (k + 1 : Nat) :=
      ⟨((Binary.ofFloat v).exponent - 1).toNat, by omega⟩
    have heven : n = (Binary.ofFloat v).significand * 2 ^ k * 2 := by
      rw [Binary.magnitude, hk, zpow_natCast, pow_succ, ← mul_assoc] at hn
      exact_mod_cast hn.symm
    obtain rfl : k = 0 := by
      by_contra hk0
      have htwo : 2 ≤ 2 ^ k := Nat.le_self_pow hk0 2
      have := Nat.mul_le_mul hlarge htwo
      omega
    have hhalf : m * 5 = (Binary.ofFloat v).significand := by
      apply natCast_eq_of_abs_sub_lt
      rw [hk, zpow_natCast, heven, abs_le] at hclose
      rw [abs_lt]
      push_cast at hclose ⊢
      constructor <;> linarith
    omega
  · have hunit : (2 : ℚ) ^ (Binary.ofFloat v).exponent ≤ 1 :=
      zpow_le_one_of_nonpos₀ (by norm_num) hneg
    exact natCast_eq_of_abs_sub_lt (by linarith)

theorem leadingPlaceOf_of_whole {n : Nat} (hn : (Binary.ofFloat v).magnitude = n)
    (hs : (Binary.ofFloat v).significand ≠ 0) (hlt : n < 10 ^ 16) :
    ∃ place : Nat, place < 16 ∧ leadingPlaceOf v = place := by
  have hten : (1 : ℚ) < 10 := by norm_num
  obtain ⟨hleading, hbelow⟩ := leadingPlaceOf_bracket hs
  rw [hn] at hleading hbelow
  have hpos : 1 ≤ n := by
    refine Nat.pos_of_ne_zero fun h0 => ?_
    rw [h0, Nat.cast_zero] at hleading
    exact absurd hleading (not_le.2 (zpow_pos (by norm_num) _))
  have hlo : 0 < leadingPlaceOf v + 1 := by
    rw [← zpow_lt_zpow_iff_right₀ hten, zpow_zero]
    exact lt_of_le_of_lt (by exact_mod_cast hpos) hbelow
  have hhi : leadingPlaceOf v < (16 : Nat) := by
    rw [← zpow_lt_zpow_iff_right₀ hten, zpow_natCast]
    exact hleading.trans_lt (by exact_mod_cast hlt)
  exact ⟨(leadingPlaceOf v).toNat, by omega, by omega⟩

/-- A whole float below `10 ^ 16` is written with its exact value. -/
theorem magnitude_ofFloat_of_whole (hv : v.isFinite = true) {n : Nat}
    (hn : (Binary.ofFloat v).magnitude = n) (hlt : n < 10 ^ 16) :
    (Decimal.ofFloat v).magnitude = n := by
  by_cases hs : (Binary.ofFloat v).significand = 0
  · rw [Decimal.magnitude_ofFloat_of_zero hs, ← hn, Binary.magnitude, hs, Nat.cast_zero, zero_mul]
  have hread := toFloat_whole hv hn
  obtain ⟨place, hplace, hleading⟩ := leadingPlaceOf_of_whole hn hs hlt
  have hones : leadingPlaceOf v - (place : Nat) = 0 := by rw [hleading, sub_self]
  obtain ⟨k, hk, d', hfound, hshortest⟩ := exists_shortestDecimal (n := place) (by omega)
    (hones ▸ exists_mem_candidates hv hread)
  rw [Decimal.magnitude_ofFloat hs, hshortest, d'.magnitude_withoutTrailingZeros.1]
  rcases hk.eq_or_lt with rfl | hlater
  · obtain ⟨rest, hrest⟩ := candidates_ones hn
    rw [hones, hrest, List.find?_cons_of_pos (by exact Decimal.denotes_iff.2 hread),
      Option.some.injEq] at hfound
    rw [← hfound, Decimal.magnitude, zpow_zero, mul_one]
  · -- an earlier candidate is a multiple of ten
    have hdenotes := List.find?_some hfound
    obtain ⟨m, hm⟩ : d'.OnGrid 1 := by
      apply Decimal.onGrid_of_le_exponent
      rcases mem_candidates.1 (List.mem_of_find?_eq_some hfound) with rfl | rfl <;>
      · dsimp only
        omega
    have hmultiple : d'.magnitude = (m * 10 : Nat) := by
      rw [hm, zpow_one]
      push_cast
      rfl
    rw [hmultiple, eq_of_multiple_of_ten hv hn hlt (Decimal.denotes_iff.1 hdenotes) hmultiple]

end Calculator
