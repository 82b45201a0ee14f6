import LoadGenerator.Json.Printer
import LoadGenerator.Proofs.Json.Scaling
import LoadGenerator.Proofs.Json.Strings

/-!
# Reading back numbers

A number that was written is read to its end, if what follows does not go on with it. Integers come back as they were. A number that is not an integer comes back as some number: the reader works with rounded arithmetic and drops digits that no longer fit, so nothing more is said about it here, but it never refuses what was written for a finite number.
-/

namespace LoadGenerator.JsonReader

open Text

/-- What follows does not go on with a number. -/
def Stops : List Char → Prop
  | [] => True
  | c :: _ => isDigit c = false ∧ c ≠ '.' ∧ c ≠ 'e' ∧ c ≠ 'E'

theorem Stops.startsWithDigit {rest : List Char} (h : Stops rest) : startsWithDigit rest = false := by
  cases rest with
  | nil => rfl
  | cons c rest => exact h.1

/-! ## Digits -/

/-- Reading digits takes some of them, and all if the number stays below the limit. -/
theorem digitsBelow_spec (limit n : Nat) {ds : List Char} (hds : ∀ c ∈ ds, isDigit c = true) :
    ∃ k ≤ ds.length, (numberFrom n ds < limit → k = ds.length) ∧ ∀ rest, startsWithDigit rest = false →
      digitsBelow limit n (ds ++ rest) = (numberFrom n (ds.take k), ds.drop k ++ rest) := by
  induction ds generalizing n with
  | nil =>
    refine ⟨0, le_rfl, fun _ => rfl, fun rest hrest => ?_⟩
    cases rest with
    | nil => rfl
    | cons c rest =>
      have hc : isDigit c = false := hrest
      simp [digitsBelow, hc, numberFrom]
  | cons c ds ih =>
    have hc := hds c (by simp)
    by_cases hlimit : 10 * n + digitValue c < limit
    · obtain ⟨k, hk, hall, hread⟩ := ih (10 * n + digitValue c) fun d hd => hds d (by simp [hd])
      refine ⟨k + 1, by simpa using hk, fun h => by rw [hall h, List.length_cons], fun rest hrest => ?_⟩
      rw [List.cons_append, digitsBelow, if_pos (by simp [hc, hlimit]), hread rest hrest]
      rfl
    · refine ⟨0, Nat.zero_le _, fun h => absurd (lt_of_le_of_lt ?_ h) hlimit, fun rest _ => ?_⟩
      · exact le_trans (Nat.le_mul_of_pos_right _ (by positivity)) (mul_pow_le_numberFrom (10 * n + digitValue c) ds)
      · rw [List.cons_append, digitsBelow, if_neg (by simp [hlimit])]
        rfl

theorem digitsBelow_all (limit n : Nat) {ds rest : List Char} (hds : ∀ c ∈ ds, isDigit c = true)
    (hrest : startsWithDigit rest = false) (hlimit : numberFrom n ds < limit) :
    digitsBelow limit n (ds ++ rest) = (numberFrom n ds, rest) := by
  obtain ⟨k, -, hall, hread⟩ := digitsBelow_spec limit n hds
  obtain rfl := hall hlimit
  rw [hread rest hrest, List.take_length, List.drop_length, List.nil_append]

theorem startsWithDigit_append {ds rest : List Char} (hds : ∀ c ∈ ds, isDigit c = true) (hnonempty : ds ≠ []) :
    startsWithDigit (ds ++ rest) = true := by
  obtain ⟨c, ds, rfl⟩ := List.exists_cons_of_ne_nil hnonempty
  exact hds c (by simp)

theorem dropWhile_isDigit {ds rest : List Char} (hds : ∀ c ∈ ds, isDigit c = true) (hrest : startsWithDigit rest = false) :
    (ds ++ rest).dropWhile isDigit = rest := by
  rw [List.dropWhile_append_of_pos hds]
  cases rest with
  | nil => rfl
  | cons c rest =>
    have hc : isDigit c = false := hrest
    simp [hc]

/-! ## The integer part -/

/-- The digits of a number that is read whole before a point, an exponent or the end. -/
structure IsWhole (ds : List Char) (n : Nat) : Prop where
  nonempty : ds ≠ []
  digits : ∀ c ∈ ds, isDigit c = true
  leading : ds.head? ≠ some '0' ∨ ds = ['0']
  number_eq : numberFrom 0 ds = n
  small : n < UInt64.size

theorem isWhole_decimal {n : Nat} (hn : n < UInt64.size) : IsWhole (decimal n) n where
  nonempty := decimal_ne_nil n
  digits _ := isDigit_of_mem_decimal
  leading := by
    by_cases hzero : n = 0
    · rw [hzero]
      exact .inr (decimal_of_lt (by decide))
    · exact .inl (head_decimal_ne_zero hzero)
  number_eq := numberFrom_decimal n
  small := hn

/-- After the integer digits it depends on what follows them. -/
theorem unsignedNumber_whole {ds : List Char} {n : Nat} (h : IsWhole ds n) (negative : Bool) {tail : List Char}
    (htail : startsWithDigit tail = false) : unsignedNumber negative (ds ++ tail) = afterInteger negative n tail := by
  obtain ⟨c, ds', rfl⟩ := List.exists_cons_of_ne_nil h.nonempty
  by_cases hzero : c = '0'
  · subst hzero
    obtain rfl : ds' = [] := by
      rcases h.leading with hhead | hsingle
      · exact absurd rfl hhead
      · exact (List.cons.inj hsingle).2
    have hn : n = 0 := h.number_eq.symm
    simp only [List.cons_append, List.nil_append, unsignedNumber, get_bind, set_bind, htail, Bool.false_eq_true, if_false, hn]
  · have hread := digitsBelow_all UInt64.size 0 h.digits htail (by rw [h.number_eq]; exact h.small)
    rw [h.number_eq, List.cons_append] at hread
    have hc := h.digits c (by simp)
    simp only [List.cons_append, unsignedNumber, get_bind, hc, hread, set_bind, htail, if_true, Bool.false_eq_true, if_false]

theorem afterInteger_stops {rest : List Char} (hrest : Stops rest) (negative : Bool) (n : Nat) :
    afterInteger negative n rest = .ok (integerNumber negative n, rest) := by
  cases rest with
  | nil => rfl
  | cons c rest =>
    obtain ⟨-, hpoint, hlower, hupper⟩ := hrest
    simp [afterInteger, get_bind, hpoint, hlower, hupper, pure_apply]

theorem unsignedNumber_integer {n : Nat} (hn : n < UInt64.size) (negative : Bool) {rest : List Char} (hrest : Stops rest) :
    unsignedNumber negative (decimal n ++ rest) = .ok (integerNumber negative n, rest) := by
  rw [unsignedNumber_whole (isWhole_decimal hn) negative hrest.startsWithDigit, afterInteger_stops hrest]

theorem number_unsigned {c : Char} (hc : c ≠ '-') (rest : List Char) : number (c :: rest) = unsignedNumber false (c :: rest) := by
  simp [number, get_bind, hc]

theorem number_negative (rest : List Char) : number ('-' :: rest) = unsignedNumber true rest := rfl

/-! ## Fractions and exponents -/

/-- What ends a number that is not an integer: nothing, or an exponent. -/
inductive Tail : List Char → ℤ → Prop where
  | none : Tail [] 0
  | above (sign : List Char) (k : Nat) (hsign : sign = [] ∨ sign = ['+']) (hk : k < 2147483648) : Tail ('e' :: sign ++ decimal k) k
  | below (k : Nat) (hk : k < 2147483648) : Tail ('e' :: '-' :: decimal k) (-k)

theorem Tail.startsWithDigit {tail rest : List Char} {shift : ℤ} (h : Tail tail shift) (hrest : Stops rest) :
    startsWithDigit (tail ++ rest) = false := by
  cases h with
  | none => exact hrest.startsWithDigit
  | above => rfl
  | below => rfl

theorem exponent_digits {k : Nat} (hk : k < 2147483648) {rest : List Char} (hrest : Stops rest) :
    digitsBelow 0x80000000 0 (decimal k ++ rest) = (k, rest) := by
  have h := digitsBelow_all 0x80000000 0 (fun _ => isDigit_of_mem_decimal) hrest.startsWithDigit
    (by rw [numberFrom_decimal]; exact hk)
  rwa [numberFrom_decimal] at h

theorem saturate_of_mem {n : ℤ} (hlow : -2147483648 ≤ n) (hhigh : n ≤ 2147483647) : saturate n = n := by
  unfold saturate
  omega

theorem exists_decimal_cons (k : Nat) : ∃ c ds, decimal k = c :: ds ∧ isDigit c = true ∧ c ≠ '+' ∧ c ≠ '-' := by
  obtain ⟨c, ds, hds⟩ := List.exists_cons_of_ne_nil (decimal_ne_nil k)
  have hc : isDigit c = true := isDigit_of_mem_decimal (n := k) (by rw [hds]; simp)
  refine ⟨c, ds, hds, hc, ?_, ?_⟩
  · rintro rfl
    cases hc
  · rintro rfl
    cases hc

/-- An exponent is read to its end, with or without the sign for powers above zero. -/
theorem exponent_above {k : Nat} (hk : k < 2147483648) {rest : List Char} (hrest : Stops rest) {sign : List Char}
    (hsign : sign = [] ∨ sign = ['+']) (negative : Bool) (significand : Nat) (power : ℤ) :
    exponent negative significand power (sign ++ (decimal k ++ rest)) =
      scaledNumber negative significand (saturate (power + k)) rest := by
  obtain ⟨c, ds, hds, hc, hplus, hminus⟩ := exists_decimal_cons k
  have hread := exponent_digits hk hrest
  rw [hds, List.cons_append] at hread ⊢
  rcases hsign with rfl | rfl
  · simp [exponent, modifyGet_bind, get_bind, set_bind, hplus, hminus, hc, hread, hrest.startsWithDigit]
  · simp [exponent, modifyGet_bind, get_bind, set_bind, hc, hread, hrest.startsWithDigit]

theorem exponent_below {k : Nat} (hk : k < 2147483648) {rest : List Char} (hrest : Stops rest) (negative : Bool)
    (significand : Nat) (power : ℤ) :
    exponent negative significand power ('-' :: (decimal k ++ rest)) =
      scaledNumber negative significand (saturate (power - k)) rest := by
  obtain ⟨c, ds, hds, hc, -, -⟩ := exists_decimal_cons k
  have hread := exponent_digits hk hrest
  rw [hds, List.cons_append] at hread ⊢
  simp [exponent, modifyGet_bind, get_bind, set_bind, hc, hread, hrest.startsWithDigit]

theorem exponentOrEnd_tail {tail rest : List Char} {shift : ℤ} (h : Tail tail shift) (hrest : Stops rest) (negative : Bool)
    (significand : Nat) {power : ℤ} (hlow : -2147483648 ≤ power + shift) (hhigh : power + shift ≤ 2147483647) :
    exponentOrEnd negative significand power (tail ++ rest) = scaledNumber negative significand (power + shift) rest := by
  cases h with
  | none =>
    rw [List.nil_append, add_zero]
    cases rest with
    | nil => rfl
    | cons c rest =>
      obtain ⟨-, -, hlower, hupper⟩ := hrest
      simp [exponentOrEnd, get_bind, hlower, hupper]
  | above sign k hsign hk =>
    rw [← saturate_of_mem hlow hhigh, ← exponent_above hk hrest hsign, List.append_assoc, List.cons_append]
    rfl
  | below k hk =>
    rw [← saturate_of_mem hlow hhigh, ← sub_eq_add_neg, ← exponent_below hk hrest]
    rfl

/-- The digits of a fraction move the power of ten, as many of them as fit. -/
theorem fraction_spec (negative : Bool) (n : Nat) {ds : List Char} (hds : ∀ c ∈ ds, isDigit c = true) (hnonempty : ds ≠ []) :
    ∃ k ≤ ds.length, (numberFrom n ds < UInt64.size → k = ds.length) ∧ ∀ tail, startsWithDigit tail = false →
      fraction negative n 0 (ds ++ tail) = exponentOrEnd negative (numberFrom n (ds.take k)) (-k) tail := by
  obtain ⟨k, hk, hall, hread⟩ := digitsBelow_spec UInt64.size n hds
  refine ⟨k, hk, hall, fun tail htail => ?_⟩
  have hcount : (ds ++ tail).length - (ds.drop k ++ tail).length = k := by
    simp only [List.length_append, List.length_drop]
    omega
  simp only [fraction, get_bind, hread tail htail, hcount, set_bind, zero_sub]
  rcases Nat.lt_or_ge k ds.length with hless | hfull
  · -- digits that no longer fit are dropped
    have hleft : ∀ c ∈ ds.drop k, isDigit c = true := fun c hc => hds c (List.mem_of_mem_drop hc)
    rw [if_pos (startsWithDigit_append hleft (by simpa using hless)), set_bind, dropWhile_isDigit hleft htail]
  · have hk' : k ≠ 0 := by
      have := List.length_pos_iff.mpr hnonempty
      omega
    rw [List.drop_eq_nil_of_le hfull, List.nil_append, if_neg (by simp [htail]), if_neg hk']

theorem scaledNumber_of_isSome {n : Nat} {power : ℤ} (h : (scale (Binary64.ofNat n) power).isSome = true) (negative : Bool) :
    ∃ x, ∀ rest, scaledNumber negative n power rest = .ok (.real x, rest) := by
  obtain ⟨x, hx⟩ := Option.isSome_iff_exists.mp h
  refine ⟨if negative then x.neg else x, fun rest => ?_⟩
  simp only [scaledNumber, hx, pure_apply]

end LoadGenerator.JsonReader
