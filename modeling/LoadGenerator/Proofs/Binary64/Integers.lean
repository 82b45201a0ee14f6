import LoadGenerator.Proofs.Binary64.Rounding

/-!
# Whole numbers in binary64

A whole number below `2 ^ 53` is a binary64 number. So the sum of two of them is rounded to itself as long as it is below that bound too, and they are compared as the whole numbers that they are.
-/

namespace LoadGenerator.Binary64

/-! ## Sums -/

/-- The number as a count of units of `2 ^ place`, a place that is not above its own last one. -/
def unitsAt (x : Binary64) (place : Int) : Int :=
  let units : Nat := x.significand <<< (x.exponent - place).toNat
  if x.negative then -units else units

/-- The rounded sum of two finite numbers; a sum of zero is negative if both of them are. -/
def add (x y : Binary64) : Binary64 :=
  let place := min x.exponent y.exponent
  let sum := x.unitsAt place + y.unitsAt place
  ofQuotient (if sum = 0 then x.negative && y.negative else decide (sum < 0)) (sum.natAbs <<< place.toNat) (1 <<< (-place).toNat)

/-! ## Exact values -/

/-- The binary64 number is this whole number. -/
structure IsNat (x : Binary64) (n : Nat) : Prop where
  nonnegative : x.negative = false
  finite : x.isFinite = true
  value_eq : x.value = n

theorem negative_ofQuotient (negative : Bool) (numerator denominator : Nat) :
    (ofQuotient negative numerator denominator).negative = negative := by
  unfold ofQuotient ofMagnitude
  dsimp only
  split_ifs <;> rfl

theorem divideToEven_mul_left (n : Nat) {denominator : Nat} (hdenominator : 0 < denominator) :
    divideToEven (n * denominator) denominator = n := by
  unfold divideToEven
  dsimp only
  rw [Nat.mul_mod_left, Nat.mul_div_cancel _ hdenominator, if_pos (by omega)]

/-- The last place of a whole number with at most 53 digits is not above that of one. -/
theorem lastPlace_nonpos {n numerator denominator : Nat} (hdenominator : 0 < denominator) (hpositive : 0 < n) (hsmall : n < 2 ^ 53)
    (hquotient : (numerator / denominator : ℚ) = n) : lastPlace numerator denominator ≤ 0 := by
  have hone : (1 : ℚ) ≤ numerator / denominator := by
    rw [hquotient]
    exact_mod_cast hpositive
  have hlarge := two_pow_mul_lastPlace_le hdenominator hone
  rw [hquotient] at hlarge
  by_contra hplace
  have htwo : (2 : ℚ) ^ (1 : ℤ) ≤ 2 ^ lastPlace numerator denominator := by
    gcongr
    · norm_num
    · omega
  have hbound : (2 ^ 53 : ℚ) ≤ n := by
    rw [zpow_one] at htwo
    linarith
  exact absurd (by exact_mod_cast hbound : 2 ^ 53 ≤ n) (by omega)

/-- A quotient that is a whole number keeps all its digits. -/
theorem keptDigits_of_nonpos {n numerator denominator : Nat} (hdenominator : 0 < denominator)
    (hplace : lastPlace numerator denominator ≤ 0) (hquotient : (numerator / denominator : ℚ) = n) :
    (keptDigits numerator denominator : ℚ) * 2 ^ lastPlace numerator denominator = n := by
  have hnumerator : numerator = n * denominator := by
    have hpositive : (denominator : ℚ) ≠ 0 := by exact_mod_cast hdenominator.ne'
    rw [div_eq_iff hpositive] at hquotient
    exact_mod_cast hquotient
  rw [keptDigits, Int.toNat_of_nonpos hplace, Nat.shiftLeft_zero, Nat.shiftLeft_eq]
  obtain ⟨shift, hshift⟩ := Int.eq_ofNat_of_zero_le (Int.neg_nonneg.mpr hplace)
  have hexact : divideToEven (numerator * 2 ^ shift) denominator = n * 2 ^ shift := by
    rw [hnumerator, Nat.mul_right_comm, divideToEven_mul_left _ hdenominator]
  rw [hshift, Int.toNat_natCast, hexact, show lastPlace numerator denominator = -(shift : ℤ) by omega, zpow_neg, zpow_natCast]
  push_cast
  field_simp

theorem natCast_lt_threshold {n : Nat} (hsmall : n < 2 ^ 53) : (n : ℚ) < threshold := by
  have hbound : (n : ℚ) < 2 ^ 53 := by exact_mod_cast hsmall
  refine hbound.trans_le ?_
  have hpower : (1 : ℚ) ≤ 2 ^ (970 : ℤ) := one_le_zpow₀ (by norm_num) (by norm_num)
  unfold threshold
  generalize (2 : ℚ) ^ (970 : ℤ) = power at hpower
  linarith

theorem isNat_zero : zero.IsNat 0 where
  nonnegative := rfl
  finite := by decide
  value_eq := by
    have hsignificand : zero.significand = 0 := rfl
    rw [value, hsignificand, Nat.cast_zero, zero_mul]

/-- A quotient that is a whole number below `2 ^ 53` is rounded to itself. -/
theorem isNat_ofQuotient {n numerator denominator : Nat} (hdenominator : 0 < denominator) (hsmall : n < 2 ^ 53)
    (hquotient : (numerator / denominator : ℚ) = n) : (ofQuotient false numerator denominator).IsNat n := by
  rcases Nat.eq_zero_or_pos n with rfl | hpositive
  · have hnumerator : numerator = 0 := by
      rw [Nat.cast_zero, div_eq_zero_iff] at hquotient
      have hne : (denominator : ℚ) ≠ 0 := by exact_mod_cast hdenominator.ne'
      exact_mod_cast hquotient.resolve_right hne
    rw [hnumerator]
    exact isNat_zero
  · have hone : (1 : ℚ) ≤ numerator / denominator := by
      rw [hquotient]
      exact_mod_cast hpositive
    have hbelow : (numerator / denominator : ℚ) < threshold := by
      rw [hquotient]
      exact natCast_lt_threshold hsmall
    refine ⟨negative_ofQuotient _ _ _, isFinite_ofQuotient false hdenominator hbelow, ?_⟩
    rw [value_ofQuotient false hdenominator hone hbelow]
    exact keptDigits_of_nonpos hdenominator (lastPlace_nonpos hdenominator hpositive hsmall hquotient) hquotient

theorem isNat_ofNat {n : Nat} (hsmall : n < 2 ^ 53) : (ofNat n).IsNat n :=
  isNat_ofQuotient Nat.one_pos hsmall (by rw [Nat.cast_one, div_one])

theorem isNat_one : one.IsNat 1 := by
  have hone : ofNat 1 = one := by decide +kernel
  rw [← hone]
  exact isNat_ofNat (by decide)

/-! ## Arithmetic -/

theorem unitsAt_mul {x : Binary64} {place : Int} (hnonnegative : x.negative = false) (hplace : place ≤ x.exponent) :
    (x.unitsAt place : ℚ) * 2 ^ place = x.value := by
  obtain ⟨shift, hshift⟩ := Int.eq_ofNat_of_zero_le (Int.sub_nonneg.mpr hplace)
  unfold unitsAt
  dsimp only
  rw [hnonnegative, if_neg Bool.false_ne_true, hshift, Int.toNat_natCast, Nat.shiftLeft_eq, value,
    show x.exponent = shift + place by omega, zpow_add₀ two_ne_zero, zpow_natCast]
  push_cast
  ring

theorem unitsAt_nonneg {x : Binary64} (hnonnegative : x.negative = false) (place : Int) : 0 ≤ x.unitsAt place := by
  unfold unitsAt
  dsimp only
  rw [hnonnegative, if_neg Bool.false_ne_true]
  exact Int.natCast_nonneg _

variable {x y : Binary64} {m n : Nat}

/-- The sum of two whole numbers is exact below `2 ^ 53`. -/
theorem IsNat.add (hx : x.IsNat m) (hy : y.IsNat n) (hsmall : m + n < 2 ^ 53) : (x.add y).IsNat (m + n) := by
  have hunits := unitsAt_mul hx.nonnegative (min_le_left x.exponent y.exponent)
  have hunits' := unitsAt_mul hy.nonnegative (min_le_right x.exponent y.exponent)
  have hsum := Int.add_nonneg (unitsAt_nonneg hx.nonnegative (min x.exponent y.exponent))
    (unitsAt_nonneg hy.nonnegative (min x.exponent y.exponent))
  unfold Binary64.add
  dsimp only
  generalize min x.exponent y.exponent = place at hunits hunits' hsum ⊢
  have hsign : (if x.unitsAt place + y.unitsAt place = 0 then x.negative && y.negative
      else decide (x.unitsAt place + y.unitsAt place < 0)) = false := by
    rw [hx.nonnegative, decide_eq_false (not_lt.mpr hsum)]
    exact ite_self false
  rw [hsign]
  refine isNat_ofQuotient (by rw [Nat.shiftLeft_eq]; positivity) hsmall ?_
  have hquotient := shiftLeft_div_shiftLeft (x.unitsAt place + y.unitsAt place).natAbs 1 (-place)
  rw [neg_neg, Nat.cast_one, div_one, zpow_neg, div_inv_eq_mul] at hquotient
  rw [hquotient, Nat.cast_natAbs, abs_of_nonneg hsum]
  push_cast
  rw [add_mul, hunits, hunits', hx.value_eq, hy.value_eq]

/-! ## Order -/

/-- A larger magnitude is a larger value, by the exponent or by the digits in front of it. -/
theorem value_lt_of_magnitude_lt (h : x.magnitude < y.magnitude) : x.value < y.value := by
  have hparts : x.significand < 2 ^ 53 ∧ (x.exponent < y.exponent ∧ 2 ^ 52 ≤ y.significand ∨
      x.exponent = y.exponent ∧ x.significand < y.significand) := by
    unfold significand exponent leadingBit
    split_ifs <;> omega
  obtain ⟨hbound, hlower | hsame⟩ := hparts
  · obtain ⟨hexponent, hleading⟩ := hlower
    have hbound' : (x.significand : ℚ) < 2 ^ 53 := by exact_mod_cast hbound
    have hleading' : (2 ^ 52 : ℚ) ≤ y.significand := by exact_mod_cast hleading
    calc x.value < 2 ^ 53 * 2 ^ x.exponent := mul_lt_mul_of_pos_right hbound' (two_zpow_pos _)
      _ = 2 ^ 52 * 2 ^ (x.exponent + 1) := by rw [zpow_add_one₀ two_ne_zero]; ring
      _ ≤ y.significand * 2 ^ y.exponent := by
        gcongr
        · norm_num
        · omega
  · obtain ⟨hexponent, hsignificand⟩ := hsame
    rw [value, value, hexponent]
    exact mul_lt_mul_of_pos_right (by exact_mod_cast hsignificand) (two_zpow_pos _)

theorem IsNat.rank_eq (hx : x.IsNat n) : x.rank = x.magnitude := by
  rw [rank, hx.nonnegative, if_neg Bool.false_ne_true]

theorem IsNat.isNan (hx : x.IsNat n) : x.isNan = false := by
  have hfinite := of_decide_eq_true hx.finite
  exact decide_eq_false (by omega)

theorem IsNat.lt_iff (hx : x.IsNat m) (hy : y.IsNat n) : x < y ↔ m < n := by
  have hlt : x < y ↔ x.magnitude < y.magnitude := by
    change x.isNan = false ∧ y.isNan = false ∧ x.rank < y.rank ↔ _
    rw [hx.rank_eq, hy.rank_eq, and_iff_right hx.isNan, and_iff_right hy.isNan, Nat.cast_lt]
  have hvalue : x.value < y.value ↔ m < n := by rw [hx.value_eq, hy.value_eq, Nat.cast_lt]
  rw [hlt, ← hvalue]
  refine ⟨value_lt_of_magnitude_lt, fun h => ?_⟩
  rcases lt_trichotomy x.magnitude y.magnitude with hless | hsame | hmore
  · exact hless
  · have heq : x.value = y.value := by simp only [value, significand, exponent, hsame]
    exact absurd heq h.ne
  · exact absurd (value_lt_of_magnitude_lt hmore) h.le.not_gt

end LoadGenerator.Binary64
