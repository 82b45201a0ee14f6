import LoadGenerator.Json.Reader
import LoadGenerator.Proofs.Binary64.Shortest

/-!
# Scaling by powers of ten

A number with a fraction or an exponent is read by multiplying or dividing rounded numbers, which is not exact. Division always gives a number. A product may round up to infinity, but not for the digits of a finite number: below the three largest digits there is room for the rounding, and those three are computed.
-/

namespace LoadGenerator.JsonReader

open Binary64

/-! ## Products -/

theorem isFinite_mul {x y : Binary64} (h : x.value * y.value < threshold) : (x.mul y).isFinite = true := by
  unfold Binary64.mul
  dsimp only
  have hquotient := shiftLeft_div_shiftLeft (x.significand * y.significand) 1 (-(x.exponent + y.exponent))
  rw [neg_neg] at hquotient
  refine isFinite_ofQuotient _ (by rw [Nat.shiftLeft_eq]; positivity) ?_
  rw [hquotient]
  refine lt_of_eq_of_lt ?_ h
  rw [Binary64.value, Binary64.value, zpow_neg, div_inv_eq_mul, zpow_add₀ two_ne_zero]
  push_cast
  ring

/-- The digits of the largest numbers up to which products have room for rounding. -/
def roomyDigits : ℚ := 17976931348623154 * 10 ^ (292 : ℤ)

theorem roomyDigits_mul_lt : roomyDigits * (1 + 1 / 2 ^ 53) * (1 + 1 / 2 ^ 53) < threshold := by
  have h := mul_zpow_lt_mul_zpow
    (show 17976931348623154 * (2 ^ 53 + 1) * (2 ^ 53 + 1) * 10 ^ 292 < (2 ^ 54 - 1) * 2 ^ 53 * 2 ^ 53 * 2 ^ 970 by decide +kernel)
  have hfactor : (1 + 1 / 2 ^ 53 : ℚ) = (2 ^ 53 + 1) / 2 ^ 53 := by norm_num
  rw [roomyDigits, threshold, hfactor, ← mul_div_assoc, ← mul_div_assoc, div_mul_eq_mul_div, div_div, div_lt_iff₀ (by norm_num)]
  simp only [Nat.cast_ofNat] at h
  generalize (10 : ℚ) ^ (292 : ℤ) = ten at h ⊢
  generalize (2 : ℚ) ^ (970 : ℤ) = two at h ⊢
  norm_num at h ⊢
  linarith

theorem roomyDigits_lt : roomyDigits < threshold := by
  refine lt_of_le_of_lt ?_ roomyDigits_mul_lt
  have hpositive : 0 ≤ roomyDigits := by unfold roomyDigits; positivity
  rw [mul_assoc]
  exact le_mul_of_one_le_right hpositive (by norm_num)

theorem roomyDigits_lt_ten_zpow : roomyDigits < 10 ^ (309 : ℤ) := by
  rw [roomyDigits, show (309 : ℤ) = 17 + 292 by rfl, zpow_add₀ (by norm_num)]
  exact mul_lt_mul_of_pos_right (by norm_num) (by positivity)

theorem two_zpow_le_roomyDigits : (2 : ℚ) ^ (1023 : ℤ) ≤ roomyDigits := by
  have h := mul_zpow_le_mul_zpow (show 1 * 2 ^ 1023 ≤ 17976931348623154 * 10 ^ 292 by decide +kernel)
  rwa [Nat.cast_one, one_mul, Nat.cast_ofNat] at h

theorem value_ofNat_le {n : Nat} (hn : n ≠ 0) (hsmall : (n : ℚ) < threshold) : (ofNat n).value ≤ n * (1 + 1 / 2 ^ 53) := by
  have hone : (1 : ℚ) ≤ n / (1 : Nat) := by
    rw [Nat.cast_one, div_one]
    exact_mod_cast Nat.one_le_iff_ne_zero.mpr hn
  have h := value_ofQuotient_le false Nat.one_pos hone (by rwa [Nat.cast_one, div_one])
  rwa [Nat.cast_one, div_one] at h

/-! ## When scaling succeeds -/

theorem isSome_scale_of_neg {power : ℤ} (hpower : power < 0) (x : Binary64) : (scale x power).isSome = true := by
  induction hsize : power.natAbs using Nat.strong_induction_on generalizing power x with
  | _ size ih =>
    rw [scale]
    split_ifs with hsmall hnonneg hzero hnonneg
    · omega
    · rfl
    · rfl
    · omega
    · exact ih (power + 308).natAbs (by omega) (by omega) _ rfl

theorem scale_of_nonneg {power : ℤ} (hlow : 0 ≤ power) (hhigh : power ≤ 308) (x : Binary64)
    (hfinite : (x.mul (ofNat (10 ^ power.toNat))).isFinite = true) : (scale x power).isSome = true := by
  rw [scale, if_pos (by omega), if_pos hlow]
  dsimp only
  rw [show Nat.pow 10 power.toNat = 10 ^ power.toNat from rfl, if_pos hfinite]
  rfl

theorem isSome_scale_zero (power : ℤ) : (scale (ofNat 0) power).isSome = true := by
  have hvalue : (ofNat 0).value = 0 := by
    have hsignificand : (ofNat 0).significand = 0 := rfl
    rw [Binary64.value, hsignificand, Nat.cast_zero, zero_mul]
  rcases lt_or_ge power 0 with hneg | hnonneg
  · exact isSome_scale_of_neg hneg _
  · rcases le_or_gt power 308 with hsmall | hlarge
    · refine scale_of_nonneg hnonneg hsmall _ (isFinite_mul ?_)
      rw [hvalue, zero_mul]
      exact threshold_pos
    · rw [scale, if_neg (by omega)]
      rfl

theorem isSome_scale_of_le {n : Nat} {power : ℤ} (hpower : 0 ≤ power) (hsize : (n * 10 ^ power : ℚ) ≤ roomyDigits) :
    (scale (ofNat n) power).isSome = true := by
  rcases Nat.eq_zero_or_pos n with rfl | hn
  · exact isSome_scale_zero power
  obtain ⟨k, rfl⟩ := Int.eq_ofNat_of_zero_le hpower
  have hone : (1 : ℚ) ≤ n := by exact_mod_cast hn
  have htenOne : (1 : ℚ) ≤ 10 ^ (k : ℤ) := one_le_zpow₀ (by norm_num) hpower
  have hnSize : (n : ℚ) ≤ roomyDigits := le_trans (le_mul_of_one_le_right (by positivity) htenOne) hsize
  have htenSize : (10 : ℚ) ^ (k : ℤ) ≤ roomyDigits := le_trans (le_mul_of_one_le_left (by positivity) hone) hsize
  have hroomy := roomyDigits_lt
  have hk : (k : ℤ) ≤ 308 := by
    by_contra hlarge
    have hpow : (10 : ℚ) ^ (309 : ℤ) ≤ 10 ^ (k : ℤ) := zpow_le_zpow_right₀ (by norm_num) (by omega)
    linarith [roomyDigits_lt_ten_zpow]
  refine scale_of_nonneg hpower hk _ (isFinite_mul ?_)
  rw [Int.toNat_natCast]
  have hten : ((10 ^ k : Nat) : ℚ) = 10 ^ (k : ℤ) := by rw [zpow_natCast]; push_cast; rfl
  have hleft := value_ofNat_le hn.ne' (hnSize.trans_lt hroomy)
  have hright := value_ofNat_le (n := 10 ^ k) (by positivity) (by rw [hten]; exact htenSize.trans_lt hroomy)
  rw [hten] at hright
  calc (ofNat n).value * (ofNat (10 ^ k)).value
      ≤ n * (1 + 1 / 2 ^ 53) * (10 ^ (k : ℤ) * (1 + 1 / 2 ^ 53)) :=
        mul_le_mul hleft hright (value_nonneg _) (by positivity)
    _ = n * 10 ^ (k : ℤ) * (1 + 1 / 2 ^ 53) * (1 + 1 / 2 ^ 53) := by ring
    _ ≤ roomyDigits * (1 + 1 / 2 ^ 53) * (1 + 1 / 2 ^ 53) := by gcongr
    _ < threshold := roomyDigits_mul_lt

/-- The digits above `roomyDigits`, up to those of the largest number. -/
theorem isSome_scale_of_top {n : Nat} (hlow : 17976931348623154 < n) (hhigh : n < 17976931348623158) :
    (scale (ofNat n) 292).isSome = true := by
  have hfinite : ((ofNat n).mul (ofNat (10 ^ (292 : ℤ).toNat))).isFinite = true := by
    obtain rfl | rfl | rfl : n = 17976931348623155 ∨ n = 17976931348623156 ∨ n = 17976931348623157 := by omega
    all_goals decide +kernel
  exact scale_of_nonneg (by decide) (by decide) _ hfinite

/-- The digits of a finite number scale, also after some of them are dropped, if short ones are kept whole. -/
theorem isSome_scale_of_digits (dropped : Nat) {digits n : Nat} {place power : ℤ} (hsize : (digits * 10 ^ place : ℚ) ≤ largestDigits)
    (hplace : (digits * 10 ^ place : ℚ) ≤ 2 ^ (1023 : ℤ) ∨ 292 ≤ place) (hdropped : n * 10 ^ dropped ≤ digits)
    (hpower : power = place + dropped) (hkept : digits < UInt64.size → dropped = 0 ∧ n = digits) :
    (scale (ofNat n) power).isSome = true := by
  rcases lt_or_ge power 0 with hneg | hnonneg
  · exact isSome_scale_of_neg hneg _
  have hten : (0 : ℚ) < 10 ^ place := by positivity
  have hshrunk : (n * 10 ^ power : ℚ) ≤ digits * 10 ^ place := by
    have hcast : ((n * 10 ^ dropped : Nat) : ℚ) ≤ digits := Nat.cast_le.mpr hdropped
    push_cast at hcast
    calc (n * 10 ^ power : ℚ) = n * 10 ^ dropped * 10 ^ place := by
          rw [hpower, zpow_add₀ (by norm_num), zpow_natCast]
          ring
      _ ≤ digits * 10 ^ place := mul_le_mul_of_nonneg_right hcast hten.le
  rcases hplace with hhalf | hlarge
  · exact isSome_scale_of_le hnonneg (hshrunk.trans (hhalf.trans two_zpow_le_roomyDigits))
  -- in the upper half the digits are a short number on the grid of the largest one
  obtain ⟨zeros, rfl⟩ : ∃ zeros : Nat, place = 292 + zeros := ⟨(place - 292).toNat, by omega⟩
  have hgrid : ∀ {bound : Nat}, (digits * 10 ^ (292 + zeros : ℤ) : ℚ) ≤ bound * 10 ^ (292 : ℤ) ↔ digits * 10 ^ zeros ≤ bound := by
    intro bound
    rw [add_comm, zpow_add₀ (by norm_num), ← mul_assoc, mul_le_mul_iff_left₀ (by positivity), zpow_natCast]
    exact_mod_cast Iff.rfl
  have hshort : digits * 10 ^ zeros ≤ 17976931348623157 := by
    rw [largestDigits, ← Nat.cast_ofNat] at hsize
    exact hgrid.mp hsize
  have hdigits : digits ≤ 17976931348623157 := le_trans (Nat.le_mul_of_pos_right _ (by positivity)) hshort
  obtain ⟨rfl, rfl⟩ := hkept (lt_of_le_of_lt hdigits (by decide))
  rcases Nat.lt_or_ge 17976931348623154 (n * 10 ^ zeros) with htop | hroomy
  · have hzeros : zeros = 0 := by
      rcases zeros with - | zeros
      · rfl
      · rw [pow_succ, ← mul_assoc] at htop hshort
        omega
    subst hzeros
    rw [pow_zero, mul_one] at htop hshort
    rw [hpower]
    exact isSome_scale_of_top htop (by omega)
  · refine isSome_scale_of_le hnonneg (hshrunk.trans ?_)
    rw [roomyDigits, ← Nat.cast_ofNat]
    exact hgrid.mpr hroomy

end LoadGenerator.JsonReader
