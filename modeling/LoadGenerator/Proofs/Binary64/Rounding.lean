import LoadGenerator.Binary64
import Mathlib.Algebra.Order.Field.Power
import Mathlib.Data.Rat.Floor
import Mathlib.Tactic

/-!
# Rounded quotients

What a quotient of natural numbers is rounded to, as a rational number. The last place fits the quotient, so the digits that are kept are at most `2 ^ 53` and, from one on, the result is too large by a relative error of at most `2 ^ -53`. A quotient below the middle between the largest number and the next power of two is rounded to a finite number.
-/

namespace LoadGenerator.Binary64

/-- The distance of a finite number from zero. -/
def value (x : Binary64) : ℚ := x.significand * 2 ^ x.exponent

/-- The middle between the largest finite number and `2 ^ 1024`. -/
def threshold : ℚ := (2 ^ 54 - 1) * 2 ^ (970 : ℤ)

theorem value_nonneg (x : Binary64) : 0 ≤ x.value := by
  rw [value]
  positivity

/-! ## Powers and shifts -/

theorem zpow_eq_div (b : ℚ) (p : ℤ) : b ^ p = b ^ p.toNat / b ^ (-p).toNat := by
  rcases le_total 0 p with hp | hp
  · obtain ⟨n, rfl⟩ := Int.eq_ofNat_of_zero_le hp
    simp
  · obtain ⟨n, hn⟩ := Int.eq_ofNat_of_zero_le (show 0 ≤ -p by omega)
    obtain rfl : p = -(n : ℤ) := by omega
    simp

theorem two_zpow_pos (p : ℤ) : (0 : ℚ) < 2 ^ p := by positivity

theorem threshold_pos : 0 < threshold := mul_pos (by norm_num) (two_zpow_pos 970)

theorem shiftLeft_le_shiftLeft_iff {numerator denominator : Nat} (hdenominator : 0 < denominator) (p : ℤ) :
    denominator <<< p.toNat ≤ numerator <<< (-p).toNat ↔ (2 : ℚ) ^ p ≤ numerator / denominator := by
  have hpositive : (0 : ℚ) < denominator := by exact_mod_cast hdenominator
  rw [zpow_eq_div 2 p, div_le_div_iff₀ (by positivity) hpositive, Nat.shiftLeft_eq, Nat.shiftLeft_eq]
  constructor
  · intro h
    have hcast : (denominator * 2 ^ p.toNat : ℚ) ≤ numerator * 2 ^ (-p).toNat := by exact_mod_cast h
    linarith
  · intro h
    have hcast : (denominator * 2 ^ p.toNat : ℚ) ≤ numerator * 2 ^ (-p).toNat := by linarith
    exact_mod_cast hcast

theorem shiftLeft_div_shiftLeft (numerator denominator : Nat) (p : ℤ) :
    ((numerator <<< (-p).toNat : Nat) : ℚ) / (denominator <<< p.toNat : Nat) = numerator / denominator / 2 ^ p := by
  rw [zpow_eq_div 2 p, Nat.shiftLeft_eq, Nat.shiftLeft_eq]
  push_cast
  field_simp

/-! ## Dividing to even -/

theorem divideToEven_le (numerator : Nat) {denominator : Nat} (hdenominator : 0 < denominator) :
    (divideToEven numerator denominator : ℚ) ≤ numerator / denominator + 1 / 2 := by
  have hnat : 2 * divideToEven numerator denominator * denominator ≤ 2 * numerator + denominator := by
    have hdivision := Nat.div_add_mod numerator denominator
    have hrest := Nat.mod_lt numerator hdenominator
    unfold divideToEven
    dsimp only
    generalize numerator / denominator = quotient at hdivision ⊢
    have hproduct : 2 * quotient * denominator = 2 * (denominator * quotient) := by ring
    have hnext : 2 * (quotient + 1) * denominator = 2 * (denominator * quotient) + 2 * denominator := by ring
    split_ifs with hbelow habove
    · omega
    · omega
    · rcases Nat.mod_two_eq_zero_or_one quotient with hparity | hparity
      · rw [hparity, Nat.add_zero]
        omega
      · rw [hparity]
        omega
  have hpositive : (0 : ℚ) < denominator := by exact_mod_cast hdenominator
  have hcast : (2 * divideToEven numerator denominator * denominator : ℚ) ≤ 2 * numerator + denominator := by
    exact_mod_cast hnat
  rw [div_add_div _ _ hpositive.ne' (by norm_num), le_div_iff₀ (by positivity)]
  linarith

theorem div_le_divideToEven (numerator denominator : Nat) : numerator / denominator ≤ divideToEven numerator denominator := by
  unfold divideToEven
  dsimp only
  split_ifs <;> omega

/-! ## The last place -/

theorem log2_bounds {n : Nat} (hn : n ≠ 0) : (2 : ℚ) ^ (n.log2 : ℤ) ≤ n ∧ (n : ℚ) < 2 ^ ((n.log2 : ℤ) + 1) := by
  constructor
  · have h := Nat.log2_self_le hn
    rw [zpow_natCast]
    exact_mod_cast h
  · have h := Nat.lt_log2_self (n := n)
    rw [show ((n.log2 : ℤ) + 1) = ((n.log2 + 1 : Nat) : ℤ) by push_cast; rfl, zpow_natCast]
    exact_mod_cast h

/-- The last place of a quotient: 53 digits are enough for it, and one fewer would not be unless there are no smaller places. -/
theorem lastPlace_spec {numerator denominator : Nat} (hnumerator : numerator ≠ 0) (hdenominator : 0 < denominator) :
    (numerator / denominator : ℚ) < 2 ^ 53 * 2 ^ lastPlace numerator denominator ∧
      (lastPlace numerator denominator = -1074 ∨ (2 ^ 52 * 2 ^ lastPlace numerator denominator : ℚ) ≤ numerator / denominator) ∧
      -1074 ≤ lastPlace numerator denominator := by
  obtain ⟨hnumeratorLow, hnumeratorHigh⟩ := log2_bounds hnumerator
  obtain ⟨hdenominatorLow, hdenominatorHigh⟩ := log2_bounds hdenominator.ne'
  have hpositive : (0 : ℚ) < denominator := by exact_mod_cast hdenominator
  unfold lastPlace
  dsimp only
  simp only [shiftLeft_le_shiftLeft_iff hdenominator]
  set quotient : ℚ := numerator / denominator with hquotient
  set estimate : ℤ := (numerator.log2 : ℤ) - denominator.log2 with hestimate
  have hlow : (2 : ℚ) ^ (estimate - 1) ≤ quotient := by
    rw [hquotient, le_div_iff₀ hpositive]
    calc (2 : ℚ) ^ (estimate - 1) * denominator ≤ 2 ^ (estimate - 1) * 2 ^ ((denominator.log2 : ℤ) + 1) := by gcongr
      _ = 2 ^ (numerator.log2 : ℤ) := by rw [← zpow_add₀ two_ne_zero]; congr 1; omega
      _ ≤ numerator := hnumeratorLow
  have hhigh : quotient < (2 : ℚ) ^ (estimate + 1) := by
    rw [hquotient, div_lt_iff₀ hpositive]
    calc (numerator : ℚ) < 2 ^ ((numerator.log2 : ℤ) + 1) := hnumeratorHigh
      _ = 2 ^ (estimate + 1) * 2 ^ (denominator.log2 : ℤ) := by rw [← zpow_add₀ two_ne_zero]; congr 1; omega
      _ ≤ 2 ^ (estimate + 1) * denominator := by gcongr
  -- the exponent of the leading digit, with the quotient between its power and the next
  obtain ⟨leading, hleading, hbelow, habove⟩ : ∃ leading : ℤ,
      (if (2 : ℚ) ^ estimate ≤ quotient then estimate else estimate - 1) = leading ∧ (2 : ℚ) ^ leading ≤ quotient ∧
        quotient < 2 ^ (leading + 1) := by
    by_cases h : (2 : ℚ) ^ estimate ≤ quotient
    · exact ⟨estimate, if_pos h, h, hhigh⟩
    · refine ⟨estimate - 1, if_neg h, hlow, ?_⟩
      rw [sub_add_cancel]
      exact not_le.mp h
  rw [hleading]
  refine ⟨?_, ?_, le_max_left _ _⟩
  · calc quotient < 2 ^ (leading + 1) := habove
      _ = 2 ^ 53 * 2 ^ (leading - 52) := by
        rw [← zpow_natCast, ← zpow_add₀ two_ne_zero]
        congr 1
        push_cast
        ring
      _ ≤ 2 ^ 53 * 2 ^ max (-1074) (leading - 52) := by
        gcongr
        · norm_num
        · exact le_max_right _ _
  · rcases le_total (leading - 52) (-1074) with h | h
    · exact .inl (max_eq_left h)
    · refine .inr ?_
      rw [max_eq_right h]
      refine le_of_eq_of_le ?_ hbelow
      rw [← zpow_natCast, ← zpow_add₀ two_ne_zero]
      congr 1
      push_cast
      ring

/-! ## The rounded quotient -/

/-- The digits that a quotient keeps. -/
def keptDigits (numerator denominator : Nat) : Nat :=
  divideToEven (numerator <<< (-lastPlace numerator denominator).toNat) (denominator <<< (lastPlace numerator denominator).toNat)

theorem ofQuotient_of_ne_zero (negative : Bool) {numerator : Nat} (hnumerator : numerator ≠ 0) (denominator : Nat) :
    ofQuotient negative numerator denominator =
      ofMagnitude negative ((lastPlace numerator denominator + 1074).toNat * leadingBit + keptDigits numerator denominator) := by
  rw [ofQuotient, if_neg hnumerator]
  rfl

theorem keptDigits_le (numerator : Nat) {denominator : Nat} (hdenominator : 0 < denominator) :
    (keptDigits numerator denominator : ℚ) ≤ numerator / denominator / 2 ^ lastPlace numerator denominator + 1 / 2 := by
  rw [← shiftLeft_div_shiftLeft]
  exact divideToEven_le _ (by rw [Nat.shiftLeft_eq]; positivity)

theorem keptDigits_le_two_pow {numerator denominator : Nat} (hnumerator : numerator ≠ 0) (hdenominator : 0 < denominator) :
    keptDigits numerator denominator ≤ 2 ^ 53 := by
  have hspec := (lastPlace_spec hnumerator hdenominator).1
  rw [← div_lt_iff₀ (two_zpow_pos _)] at hspec
  have hkept := keptDigits_le numerator hdenominator
  have hlt : (keptDigits numerator denominator : ℚ) < (2 ^ 53 + 1 : Nat) := by
    push_cast
    linarith
  have hnat := Nat.cast_lt.mp hlt
  omega

theorem two_pow_le_keptDigits {numerator denominator : Nat} (hdenominator : 0 < denominator)
    (hnormal : (2 ^ 52 * 2 ^ lastPlace numerator denominator : ℚ) ≤ numerator / denominator) :
    2 ^ 52 ≤ keptDigits numerator denominator := by
  refine le_trans ?_ (div_le_divideToEven _ _)
  have hpositive : 0 < denominator <<< (lastPlace numerator denominator).toNat := by
    rw [Nat.shiftLeft_eq]
    positivity
  rw [← le_div_iff₀ (two_zpow_pos _), ← shiftLeft_div_shiftLeft, le_div_iff₀ (by exact_mod_cast hpositive)] at hnormal
  rw [Nat.le_div_iff_mul_le hpositive]
  exact_mod_cast hnormal

theorem isFinite_ofQuotient (negative : Bool) {numerator denominator : Nat} (hdenominator : 0 < denominator)
    (hquotient : (numerator / denominator : ℚ) < threshold) : (ofQuotient negative numerator denominator).isFinite = true := by
  by_cases hnumerator : numerator = 0
  · subst hnumerator
    cases negative <;> rfl
  rw [ofQuotient_of_ne_zero negative hnumerator]
  obtain ⟨-, hnormal, hplace⟩ := lastPlace_spec hnumerator hdenominator
  have hkept := keptDigits_le numerator hdenominator
  have hkeptNat := keptDigits_le_two_pow hnumerator hdenominator
  generalize lastPlace numerator denominator = place at hnormal hplace hkept
  generalize keptDigits numerator denominator = kept at hkept hkeptNat
  have hsmall : (place + 1074).toNat * leadingBit + kept < topMagnitude := by
    unfold leadingBit topMagnitude
    rcases lt_trichotomy place 971 with hlow | rfl | hhigh
    · omega
    · have hhalf : (numerator / denominator / 2 ^ (971 : ℤ) : ℚ) < 2 ^ 53 - 1 / 2 := by
        rw [div_lt_iff₀ (two_zpow_pos _)]
        refine hquotient.trans_le (le_of_eq ?_)
        rw [threshold, show (971 : ℤ) = 970 + 1 by rfl, zpow_add_one₀ two_ne_zero]
        ring
      have hlt : (kept : ℚ) < (2 ^ 53 : Nat) := by
        push_cast
        linarith
      have hnat := Nat.cast_lt.mp hlt
      omega
    · exfalso
      rcases hnormal with rfl | hnormal
      · omega
      · have hlarge : threshold ≤ 2 ^ 52 * 2 ^ place := by
          calc threshold ≤ 2 ^ 52 * 2 ^ (972 : ℤ) := by
                have hpower := two_zpow_pos 970
                rw [threshold, show (972 : ℤ) = 970 + 1 + 1 by rfl, zpow_add_one₀ two_ne_zero, zpow_add_one₀ two_ne_zero]
                generalize (2 : ℚ) ^ (970 : ℤ) = power at hpower
                linarith
            _ ≤ 2 ^ 52 * 2 ^ place := by
                gcongr
                · norm_num
                · omega
        linarith
  rw [ofMagnitude, dif_pos hsmall, isFinite]
  exact decide_eq_true hsmall

/-- What the parts of a magnitude stand for: digits up to the carry, which moves into the exponent. -/
theorem value_of_magnitude {x : Binary64} {n kept : Nat} (hx : x.magnitude = n * leadingBit + kept) (hkept : kept ≤ 2 ^ 53)
    (hnormal : n = 0 ∨ 2 ^ 52 ≤ kept) : x.value = kept * 2 ^ (n - 1074 : ℤ) := by
  unfold leadingBit at hx
  rcases Nat.lt_or_ge kept (2 ^ 52) with hlow | hhigh
  · -- a number without the leading bit
    have hsignificand : x.significand = kept := by
      unfold significand leadingBit
      rw [if_pos (by omega)]
      omega
    have hexponent : x.exponent = n - 1074 := by
      unfold exponent leadingBit
      omega
    rw [value, hsignificand, hexponent]
  rcases Nat.lt_or_ge kept (2 ^ 53) with hfull | hcarry
  · have hsignificand : x.significand = kept := by
      unfold significand leadingBit
      rw [if_neg (by omega)]
      omega
    have hexponent : x.exponent = n - 1074 := by
      unfold exponent leadingBit
      omega
    rw [value, hsignificand, hexponent]
  · have hsignificand : x.significand = 2 ^ 52 := by
      unfold significand leadingBit
      rw [if_neg (by omega)]
      omega
    have hexponent : x.exponent = n - 1074 + 1 := by
      unfold exponent leadingBit
      omega
    obtain rfl : kept = 2 ^ 53 := by omega
    rw [value, hsignificand, hexponent, zpow_add_one₀ two_ne_zero]
    push_cast
    ring

/-- A quotient from one on has the digits of a normal number. -/
theorem two_pow_mul_lastPlace_le {numerator denominator : Nat} (hdenominator : 0 < denominator)
    (hone : (1 : ℚ) ≤ numerator / denominator) : (2 ^ 52 * 2 ^ lastPlace numerator denominator : ℚ) ≤ numerator / denominator := by
  have hnumerator : numerator ≠ 0 := by
    rintro rfl
    norm_num at hone
  obtain ⟨hbelow, hnormal, -⟩ := lastPlace_spec hnumerator hdenominator
  refine hnormal.resolve_left fun hlast => ?_
  rw [hlast] at hbelow
  have htiny : (2 ^ 53 * 2 ^ (-1074 : ℤ) : ℚ) ≤ 1 := by
    rw [← zpow_natCast, ← zpow_add₀ two_ne_zero]
    exact zpow_le_one_of_nonpos₀ (by norm_num) (by norm_num)
  linarith

/-- A quotient from one on is rounded to the digits that it keeps. -/
theorem value_ofQuotient (negative : Bool) {numerator denominator : Nat} (hdenominator : 0 < denominator)
    (hone : (1 : ℚ) ≤ numerator / denominator) (hquotient : (numerator / denominator : ℚ) < threshold) :
    (ofQuotient negative numerator denominator).value = keptDigits numerator denominator * 2 ^ lastPlace numerator denominator := by
  have hnumerator : numerator ≠ 0 := by
    rintro rfl
    norm_num at hone
  have hfinite := isFinite_ofQuotient negative hdenominator hquotient
  rw [ofQuotient_of_ne_zero negative hnumerator] at hfinite ⊢
  have hplace := (lastPlace_spec hnumerator hdenominator).2.2
  have hsmall : (lastPlace numerator denominator + 1074).toNat * leadingBit + keptDigits numerator denominator < topMagnitude := by
    by_contra hlarge
    rw [ofMagnitude, dif_neg hlarge] at hfinite
    cases hfinite
  have hmagnitude : (ofMagnitude negative ((lastPlace numerator denominator + 1074).toNat * leadingBit +
      keptDigits numerator denominator)).magnitude =
      (lastPlace numerator denominator + 1074).toNat * leadingBit + keptDigits numerator denominator := by
    rw [ofMagnitude, dif_pos hsmall]
  rw [value_of_magnitude hmagnitude (keptDigits_le_two_pow hnumerator hdenominator)
    (.inr (two_pow_le_keptDigits hdenominator (two_pow_mul_lastPlace_le hdenominator hone))), Int.toNat_of_nonneg (by omega),
    add_sub_cancel_right]

/-- A quotient from one on grows by a relative error of at most `2 ^ -53` when it is rounded. -/
theorem value_ofQuotient_le (negative : Bool) {numerator denominator : Nat} (hdenominator : 0 < denominator)
    (hone : (1 : ℚ) ≤ numerator / denominator) (hquotient : (numerator / denominator : ℚ) < threshold) :
    (ofQuotient negative numerator denominator).value ≤ numerator / denominator * (1 + 1 / 2 ^ 53) := by
  have hlarge := two_pow_mul_lastPlace_le hdenominator hone
  rw [value_ofQuotient negative hdenominator hone hquotient]
  have hpower := two_zpow_pos (lastPlace numerator denominator)
  have hkept := keptDigits_le numerator hdenominator
  calc (keptDigits numerator denominator * 2 ^ lastPlace numerator denominator : ℚ)
      ≤ (numerator / denominator / 2 ^ lastPlace numerator denominator + 1 / 2) * 2 ^ lastPlace numerator denominator := by gcongr
    _ = numerator / denominator + 2 ^ lastPlace numerator denominator / 2 := by field_simp
    _ ≤ numerator / denominator * (1 + 1 / 2 ^ 53) := by
      rw [mul_add, mul_one]
      gcongr
      rw [mul_one_div, div_le_div_iff₀ (by norm_num) (by norm_num)]
      linarith

end LoadGenerator.Binary64
