import LoadGenerator.Binary64.Decimal
import LoadGenerator.Proofs.Binary64.Rounding

/-!
# The shortest digits of a number

The search for digits walks from coarse to fine grids. It always ends on a grid with a point between the middles of the gaps around the number, so the digits that it finds are never zero and never beyond the middle above the largest number. The largest numbers get at most seventeen digits.
-/

namespace LoadGenerator.Binary64

section

variable (tie : Tie) (x : Binary64) (place : ℤ)

/-- The unit of a grid and of the gaps, a quarter of the last place, on a common scale. -/
def gridUnit : Nat := Nat.pow 10 (-place).toNat <<< (x.exponent - 2).toNat

/-- The distance of the points of a grid, on the same scale. -/
def gridCell : Nat := Nat.pow 10 place.toNat <<< (-(x.exponent - 2)).toNat

theorem gridUnit_pos : 0 < gridUnit x place := by
  rw [gridUnit, Nat.shiftLeft_eq]
  exact Nat.mul_pos (Nat.pow_pos (by decide)) (by positivity)

theorem gridCell_pos : 0 < gridCell x place := by
  rw [gridCell, Nat.shiftLeft_eq]
  exact Nat.mul_pos (Nat.pow_pos (by decide)) (by positivity)

theorem gridCell_div_gridUnit : (gridCell x place : ℚ) / gridUnit x place = 10 ^ place / 2 ^ (x.exponent - 2) := by
  rw [zpow_eq_div 10 place, zpow_eq_div 2 (x.exponent - 2), gridCell, gridUnit, Nat.shiftLeft_eq, Nat.shiftLeft_eq]
  push_cast [Nat.pow_eq]
  field_simp

variable {x place}

/-- A point that is found lies between the middles of the gaps around the number. -/
theorem onGrid_spec {point : Nat} (h : onGrid tie x place = some point) :
    (4 * x.significand - x.gapBelow) * gridUnit x place ≤ point * gridCell x place ∧
      point * gridCell x place ≤ (4 * x.significand + 2) * gridUnit x place := by
  unfold onGrid at h
  extract_lets power unit cell value low high within below rest at h
  have hwithin : ∀ p, within p = true → low ≤ p * cell ∧ p * cell ≤ high := by
    intro p hp
    simp only [within] at hp
    split_ifs at hp
    · exact of_decide_eq_true hp
    · have hstrict := of_decide_eq_true hp
      exact ⟨hstrict.1.le, hstrict.2.le⟩
  refine hwithin point ?_
  split at h
  case h_1 hbelow _ => rwa [← Option.some.inj h]
  case h_2 _ habove => rwa [← Option.some.inj h]
  case h_3 => cases h
  case h_4 hbelow habove =>
    split_ifs at h
    · rwa [← Option.some.inj h]
    · rwa [← Option.some.inj h]
    · cases tie with
      | up => rwa [← Option.some.inj h]
      | even =>
        rw [← Option.some.inj h]
        rcases Nat.mod_two_eq_zero_or_one below with hparity | hparity
        · rwa [hparity]
        · rwa [hparity]

/-- The gap below is as wide as the gap above, or half as wide below a power of two. -/
theorem gapBelow_cases (x : Binary64) : x.gapBelow = 2 ∨ x.gapBelow = 1 ∧ x.significand % 2 = 0 := by
  unfold gapBelow significand
  split_ifs with hboundary hsmall
  · unfold leadingBit at hboundary hsmall
    omega
  · refine .inr ⟨rfl, ?_⟩
    rw [hboundary.1]
    rfl
  · exact .inl rfl
  · exact .inl rfl

/-- A grid that is not much coarser than the gaps around the number has a point between their middles. -/
theorem isSome_onGrid (hsignificand : 0 < x.significand) (hcell : gridCell x place < 3 * gridUnit x place) :
    (onGrid tie x place).isSome = true := by
  have hunit := gridUnit_pos x place
  have hlow : (4 * x.significand - x.gapBelow) * gridUnit x place + x.gapBelow * gridUnit x place =
      4 * x.significand * gridUnit x place := by
    have hgap := gapBelow_cases x
    rw [← Nat.add_mul, Nat.sub_add_cancel (by omega)]
  have hhigh : (4 * x.significand + 2) * gridUnit x place = 4 * x.significand * gridUnit x place + 2 * gridUnit x place :=
    Nat.add_mul _ _ _
  have hgap : x.gapBelow * gridUnit x place = 2 * gridUnit x place ∨
      x.gapBelow * gridUnit x place = gridUnit x place ∧ x.significand % 2 = 0 := by
    rcases gapBelow_cases x with htwo | ⟨hone, heven⟩
    · exact .inl (by rw [htwo])
    · exact .inr ⟨by rw [hone, Nat.one_mul], heven⟩
  unfold onGrid
  extract_lets power unit cell value low high within below rest
  have hdivision : below * cell + rest = value := by rw [Nat.mul_comm]; exact Nat.div_add_mod value cell
  have hnext : (below + 1) * cell = below * cell + cell := Nat.succ_mul _ _
  have hrest : rest < cell := Nat.mod_lt _ (gridCell_pos x place)
  have hunitEq : gridUnit x place = unit := rfl
  have hcellEq : gridCell x place = cell := rfl
  have hlowEq : (4 * x.significand - x.gapBelow) * unit = low := rfl
  have hhighEq : (4 * x.significand + 2) * unit = high := rfl
  have hvalueEq : 4 * x.significand * unit = value := rfl
  rw [hunitEq] at hunit hlow hhigh hgap hcell
  rw [hcellEq] at hcell
  rw [hlowEq, hvalueEq] at hlow
  rw [hhighEq, hvalueEq] at hhigh
  clear_value rest below low high value cell unit
  -- one of the two neighbours of the number is near enough
  have hfound : within below = true ∨ within (below + 1) = true := by
    by_cases hnear : rest ≤ unit
    · left
      simp only [within]
      split_ifs <;> rw [decide_eq_true_eq] <;> omega
    · right
      simp only [within]
      split_ifs <;> rw [decide_eq_true_eq] <;> omega
  clear_value within
  rcases hbelow : within below with - | - <;> rcases habove : within (below + 1) with - | -
  · rw [hbelow, habove] at hfound
    rcases hfound with hfalse | hfalse <;> cases hfalse
  · rfl
  · rfl
  · dsimp only
    split_ifs
    · rfl
    · rfl
    · cases tie <;> rfl

theorem gridCell_lt_iff : gridCell x place < 3 * gridUnit x place ↔ (10 : ℚ) ^ place < 3 * 2 ^ (x.exponent - 2) := by
  have hunit : (0 : ℚ) < gridUnit x place := by exact_mod_cast gridUnit_pos x place
  rw [← div_lt_iff₀ (two_zpow_pos _), ← gridCell_div_gridUnit, div_lt_iff₀ hunit]
  exact_mod_cast Iff.rfl

/-- The walk ends on or before a grid that has a point, if it has enough tries to get there. -/
theorem firstGrid_spec {last : ℤ} (hlast : (onGrid tie x last).isSome = true) (tries : Nat) (hle : last ≤ place)
    (htries : place - last < tries) :
    ∃ point p, firstGrid tie x tries place = ⟨point, p⟩ ∧ last ≤ p ∧ onGrid tie x p = some point := by
  induction tries generalizing place with
  | zero => omega
  | succ tries ih =>
    rw [firstGrid]
    cases hgrid : onGrid tie x place with
    | some point => exact ⟨point, place, rfl, hle, hgrid⟩
    | none =>
      have hne : last ≠ place := by
        rintro rfl
        rw [hgrid] at hlast
        cases hlast
      exact ih (by omega) (by omega)

end

/-! ## Where the walk starts -/

/-- The comparison below for one power of two, in natural numbers. -/
private def startIsFine (n : Nat) : Bool :=
  let j : ℤ := n - 1073
  let k := Int.fdiv (j * 30103) 100000 - 21
  decide (10 ^ k.toNat * 2 ^ (-(j - 55)).toNat ≤ 2 ^ (j - 55).toNat * 10 ^ (-k).toNat)

/-- Twenty-one places below the estimate of the leading digit, a grid is finer than the last place of any number of that size. -/
theorem ten_zpow_le_two_zpow {j : ℤ} (hlow : -1073 ≤ j) (hhigh : j ≤ 1024) :
    (10 : ℚ) ^ (Int.fdiv (j * 30103) 100000 - 21) ≤ 2 ^ (j - 55) := by
  have hall : ∀ n < 2098, startIsFine n = true := by decide +kernel
  obtain ⟨n, rfl⟩ : ∃ n : Nat, j = n - 1073 := ⟨(j + 1073).toNat, by omega⟩
  have hn := of_decide_eq_true (hall n (by omega))
  rw [zpow_eq_div 10, zpow_eq_div 2, div_le_div_iff₀ (by positivity) (by positivity)]
  exact_mod_cast hn

theorem parts_of_finite {x : Binary64} (hfinite : x.isFinite = true) (hzero : x.isZero = false) :
    0 < x.significand ∧ x.significand < 2 ^ 53 ∧ -1074 ≤ x.exponent ∧ x.exponent ≤ 971 ∧
      (x.exponent = 971 → 2 ^ 52 ≤ x.significand) := by
  have hsmall := of_decide_eq_true hfinite
  have hpositive : x.magnitude ≠ 0 := by
    intro h
    rw [isZero, h] at hzero
    cases hzero
  unfold significand exponent leadingBit
  unfold topMagnitude at hsmall
  split_ifs with h
  · omega
  · omega

theorem mul_zpow_le_mul_zpow {a b k j : Nat} (h : a * 2 ^ k ≤ b * 10 ^ j) : (a : ℚ) * 2 ^ (k : ℤ) ≤ b * 10 ^ (j : ℤ) := by
  rw [zpow_natCast, zpow_natCast]
  exact_mod_cast h

theorem mul_zpow_lt_mul_zpow {a b k j : Nat} (h : a * 10 ^ k < b * 2 ^ j) : (a : ℚ) * 10 ^ (k : ℤ) < b * 2 ^ (j : ℤ) := by
  rw [zpow_natCast, zpow_natCast]
  exact_mod_cast h

/-- The gaps of the largest numbers are wider than the grid that gives them seventeen digits. -/
theorem ten_zpow_lt_three_mul : (10 : ℚ) ^ (292 : ℤ) < 3 * 2 ^ (971 - 2 : ℤ) := by
  have h := mul_zpow_lt_mul_zpow (show 1 * 10 ^ 292 < 3 * 2 ^ 969 by decide +kernel)
  rwa [Nat.cast_one, one_mul] at h

/-- The digits of the largest finite number. -/
def largestDigits : ℚ := 17976931348623157 * 10 ^ (292 : ℤ)

/-- The middle above the second largest number is below the digits of the largest one. -/
theorem mul_two_zpow_le_largestDigits : (2 ^ 55 - 6) * 2 ^ (969 : ℤ) ≤ largestDigits := by
  have h := mul_zpow_le_mul_zpow (show (2 ^ 55 - 6) * 2 ^ 969 ≤ 17976931348623157 * 10 ^ 292 by decide +kernel)
  rwa [show ((2 ^ 55 - 6 : Nat) : ℚ) = 2 ^ 55 - 6 by norm_num, Nat.cast_ofNat] at h

theorem two_zpow_le_largestDigits : (2 : ℚ) ^ (1023 : ℤ) ≤ largestDigits := by
  have h := mul_zpow_le_mul_zpow (show 1 * 2 ^ 1023 ≤ 17976931348623157 * 10 ^ 292 by decide +kernel)
  rwa [Nat.cast_one, one_mul, Nat.cast_ofNat] at h

/-- The walk finds its grid, not far below the leading digit; for the largest exponent that grid is coarse. -/
theorem exists_shortest_onGrid (tie : Tie) {x : Binary64} (hfinite : x.isFinite = true) (hzero : x.isZero = false) :
    ∃ digits place, x.shortest tie = ⟨digits, place⟩ ∧ onGrid tie x place = some digits ∧ -400 ≤ place ∧
      (x.exponent = 971 → 292 ≤ place) := by
  obtain ⟨hpositive, hsmall, hexponentLow, hexponentHigh, hlargest⟩ := parts_of_finite hfinite hzero
  have hlog : x.significand.log2 < 53 := (Nat.log2_lt hpositive.ne').mpr hsmall
  set j : ℤ := x.significand.log2 + x.exponent + 1 with hj
  have hshortest : x.shortest tie = firstGrid tie x 24 (Int.fdiv (j * 30103) 100000 + 2) := by
    rw [shortest, if_neg (by simp [hzero])]
  have hsome : ∀ place, (10 : ℚ) ^ place < 3 * 2 ^ (x.exponent - 2) → (onGrid tie x place).isSome = true :=
    fun place h => isSome_onGrid tie hpositive (gridCell_lt_iff.mpr h)
  rw [hshortest]
  by_cases htop : x.exponent = 971
  · have hj' : j = 1024 := by
      have hlarge := (Nat.le_log2 hpositive.ne').mpr (hlargest htop)
      omega
    have hlast := hsome 292 (by rw [htop]; exact ten_zpow_lt_three_mul)
    rw [hj', show Int.fdiv (1024 * 30103) 100000 + 2 = 310 by decide]
    obtain ⟨digits, place, hfirst, hplace, hgrid⟩ := firstGrid_spec tie hlast 24 (show 292 ≤ 310 by decide) (by decide)
    exact ⟨digits, place, hfirst, hgrid, by omega, fun _ => hplace⟩
  · have hfine : (10 : ℚ) ^ (Int.fdiv (j * 30103) 100000 - 21) < 3 * 2 ^ (x.exponent - 2) := by
      have hpower := two_zpow_pos (x.exponent - 2)
      calc (10 : ℚ) ^ (Int.fdiv (j * 30103) 100000 - 21) ≤ 2 ^ (j - 55) := ten_zpow_le_two_zpow (by omega) (by omega)
        _ ≤ 2 ^ (x.exponent - 2) := zpow_le_zpow_right₀ (by norm_num) (by omega)
        _ < 3 * 2 ^ (x.exponent - 2) := by linarith
    have hlast := hsome _ hfine
    have hstart : -324 ≤ Int.fdiv (j * 30103) 100000 := by
      rw [Int.fdiv_eq_ediv_of_nonneg _ (by norm_num)]
      omega
    generalize Int.fdiv (j * 30103) 100000 = start at hlast hstart
    obtain ⟨digits, place, hfirst, hplace, hgrid⟩ :=
      firstGrid_spec tie hlast 24 (show start - 21 ≤ start + 2 by omega) (by omega)
    exact ⟨digits, place, hfirst, hgrid, by omega, fun h => absurd h htop⟩

theorem onGrid_bounds {tie : Tie} {x : Binary64} {place : ℤ} {digits : Nat} (hpositive : 0 < x.significand)
    (hgrid : onGrid tie x place = some digits) :
    (2 * 2 ^ (x.exponent - 2) : ℚ) ≤ digits * 10 ^ place ∧
      (digits * 10 ^ place : ℚ) ≤ (4 * x.significand + 2) * 2 ^ (x.exponent - 2) := by
  obtain ⟨hlow, hhigh⟩ := onGrid_spec tie hgrid
  have hunit : (0 : ℚ) < gridUnit x place := by exact_mod_cast gridUnit_pos x place
  have hpower := two_zpow_pos (x.exponent - 2)
  have hvalue : (digits * 10 ^ place : ℚ) = digits * gridCell x place / gridUnit x place * 2 ^ (x.exponent - 2) := by
    rw [mul_div_assoc, gridCell_div_gridUnit, mul_assoc, div_mul_cancel₀ _ hpower.ne']
  constructor
  · have hgap := gapBelow_cases x
    have hnat : 2 * gridUnit x place ≤ digits * gridCell x place :=
      le_trans (Nat.mul_le_mul_right _ (by omega)) hlow
    rw [hvalue]
    gcongr
    rw [le_div_iff₀ hunit]
    exact_mod_cast hnat
  · rw [hvalue]
    gcongr
    rw [div_le_iff₀ hunit]
    exact_mod_cast hhigh

theorem shortest_largest (tie : Tie) {x : Binary64} (hx : x.magnitude + 1 = topMagnitude) :
    x.shortest tie = ⟨17976931348623157, 292⟩ := by
  obtain ⟨negative, magnitude, hmagnitude⟩ := x
  obtain rfl : magnitude = 0x7fefffffffffffff := by
    unfold topMagnitude at hx
    exact Nat.succ.inj hx
  have hnegative : ∀ tie, shortest tie ⟨true, 0x7fefffffffffffff, by decide⟩ = ⟨17976931348623157, 292⟩ := by
    intro tie
    cases tie <;> decide +kernel
  have hpositive : ∀ tie, shortest tie ⟨false, 0x7fefffffffffffff, by decide⟩ = ⟨17976931348623157, 292⟩ := by
    intro tie
    cases tie <;> decide +kernel
  cases negative
  · exact hpositive tie
  · exact hnegative tie

/-- The shortest digits of a finite number other than zero: they are positive and at most those of the largest number. In the upper half of that range their last place is large. -/
theorem shortest_spec (tie : Tie) {x : Binary64} (hfinite : x.isFinite = true) (hzero : x.isZero = false) :
    ∃ digits place, x.shortest tie = ⟨digits, place⟩ ∧ 0 < digits ∧ -400 ≤ place ∧
      (digits * 10 ^ place : ℚ) ≤ largestDigits ∧ ((digits * 10 ^ place : ℚ) ≤ 2 ^ (1023 : ℤ) ∨ 292 ≤ place) := by
  obtain ⟨hpositive, hsmall, hexponentLow, hexponentHigh, -⟩ := parts_of_finite hfinite hzero
  obtain ⟨digits, place, hshortest, hgrid, hplaceLow, hplace⟩ := exists_shortest_onGrid tie hfinite hzero
  obtain ⟨hbelow, habove⟩ := onGrid_bounds hpositive hgrid
  have hpower := two_zpow_pos (x.exponent - 2)
  have hhalf : x.exponent ≠ 971 → ((4 * x.significand + 2) * 2 ^ (x.exponent - 2) : ℚ) ≤ 2 ^ (1023 : ℤ) := by
    intro htop
    have hcast : ((x.significand + 1 : Nat) : ℚ) ≤ (2 ^ 53 : Nat) := Nat.cast_le.mpr hsmall
    push_cast at hcast
    calc ((4 * x.significand + 2) * 2 ^ (x.exponent - 2) : ℚ) ≤ 2 ^ 55 * 2 ^ (x.exponent - 2) :=
          mul_le_mul_of_nonneg_right (by linarith) hpower.le
      _ ≤ 2 ^ 55 * 2 ^ (968 : ℤ) :=
          mul_le_mul_of_nonneg_left (zpow_le_zpow_right₀ (by norm_num) (by omega)) (by norm_num)
      _ = 2 ^ (1023 : ℤ) := by
        rw [← zpow_natCast, ← zpow_add₀ two_ne_zero]
        rfl
  refine ⟨digits, place, hshortest, ?_, hplaceLow, ?_, ?_⟩
  · by_contra hdigits
    obtain rfl : digits = 0 := by omega
    rw [Nat.cast_zero, zero_mul] at hbelow
    linarith
  · by_cases hlargest : x.magnitude + 1 = topMagnitude
    · rw [shortest_largest tie hlargest, Decimal.mk.injEq] at hshortest
      obtain ⟨rfl, rfl⟩ := hshortest
      rw [largestDigits, Nat.cast_ofNat]
    · refine le_trans habove ?_
      by_cases htop : x.exponent = 971
      · have hsecond : x.significand ≤ 2 ^ 53 - 2 := by
          have hfinite := of_decide_eq_true hfinite
          unfold exponent significand leadingBit topMagnitude at *
          split_ifs at * <;> omega
        have hcast : ((x.significand + 2 : Nat) : ℚ) ≤ (2 ^ 53 : Nat) := Nat.cast_le.mpr (by omega)
        push_cast at hcast
        rw [htop]
        exact le_trans (mul_le_mul_of_nonneg_right (by linarith) (two_zpow_pos _).le) mul_two_zpow_le_largestDigits
      · exact le_trans (hhalf htop) two_zpow_le_largestDigits
  · by_cases htop : x.exponent = 971
    · exact .inr (hplace htop)
    · exact .inl (habove.trans (hhalf htop))

end LoadGenerator.Binary64
