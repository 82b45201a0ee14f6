import LoadGenerator.Text.Integer
import LoadGenerator.Proofs.Text.Digits

/-!
# Numerals

A numeral writes a number in decimal, with any number of zeros in front. Reading a setting accepts the numerals of the numbers in its range, with the signs that it allows, and nothing else: no number comes out that is not the one written.
-/

namespace LoadGenerator.Text

/-- The characters are the decimal digits of the number after any number of zeros. -/
def IsNumeral (cs : List Char) (n : Nat) : Prop := ∃ zeros, cs = List.replicate zeros '0' ++ decimal n

theorem number_append (front back : List Char) : number (front ++ back) = numberFrom (number front) back := numberFrom_append 0 front back

theorem number_append_singleton (front : List Char) (c : Char) : number (front ++ [c]) = 10 * number front + digitValue c :=
  number_append front [c]

theorem digit_digitValue {c : Char} (hc : isDigit c = true) : digit (digitValue c) = c := by
  obtain ⟨hlow, hhigh⟩ := isDigit_iff.mp hc
  rw [digit, digitValue, show 48 + (c.toNat - 48) = c.toNat by omega, Char.ofNat_toNat]

theorem IsNumeral.number_eq {cs : List Char} {n : Nat} (h : IsNumeral cs n) : number cs = n := by
  obtain ⟨zeros, rfl⟩ := h
  have hzeros : number (List.replicate zeros '0') = 0 := (numberFrom_replicate_zero 0 zeros).trans (Nat.zero_mul _)
  rw [number_append, hzeros, numberFrom_decimal]

theorem IsNumeral.ne_nil {cs : List Char} {n : Nat} (h : IsNumeral cs n) : cs ≠ [] := by
  obtain ⟨zeros, rfl⟩ := h
  exact List.append_ne_nil_of_right_ne_nil _ (decimal_ne_nil n)

theorem IsNumeral.isDigit {cs : List Char} {n : Nat} (h : IsNumeral cs n) : ∀ c ∈ cs, isDigit c = true := by
  obtain ⟨zeros, rfl⟩ := h
  intro c hc
  rcases List.mem_append.mp hc with hzero | hdigit
  · rw [List.eq_of_mem_replicate hzero]
    decide
  · exact isDigit_of_mem_decimal hdigit

/-- One more digit. After zeros alone it is a numeral of its own, and otherwise it is the last digit of the number. -/
theorem IsNumeral.append_singleton {front : List Char} {n : Nat} (h : IsNumeral front n) {c : Char} (hc : Text.isDigit c = true) :
    IsNumeral (front ++ [c]) (10 * n + digitValue c) := by
  obtain ⟨zeros, rfl⟩ := h
  have hsmall := digitValue_lt hc
  rcases Nat.eq_zero_or_pos n with rfl | hpositive
  · refine ⟨zeros + 1, ?_⟩
    rw [Nat.mul_zero, Nat.zero_add, decimal_of_lt hsmall, digit_digitValue hc, decimal_of_lt (by decide), List.replicate_add]
    rfl
  · refine ⟨zeros, ?_⟩
    rw [decimal.eq_def (10 * n + digitValue c), if_neg (by omega), Nat.mul_add_div (by decide), Nat.div_eq_of_lt hsmall, Nat.add_zero,
      Nat.mul_add_mod, Nat.mod_eq_of_lt hsmall, digit_digitValue hc, List.append_assoc]

theorem isNumeral_number {cs : List Char} (hdigits : ∀ c ∈ cs, isDigit c = true) (hnonempty : cs ≠ []) : IsNumeral cs (number cs) := by
  induction cs using List.reverseRecOn with
  | nil => exact absurd rfl hnonempty
  | append_singleton front c ih =>
    have hc : isDigit c = true := hdigits c (by simp)
    rw [number_append_singleton]
    by_cases hfront : front = []
    · subst hfront
      refine ⟨0, ?_⟩
      change [c] = decimal (0 + digitValue c)
      rw [Nat.zero_add, decimal_of_lt (digitValue_lt hc), digit_digitValue hc]
    · exact (ih (fun d hd => hdigits d (List.mem_append_left _ hd)) hfront).append_singleton hc

theorem digitsValue?_eq_some_iff {cs : List Char} {n : Nat} : digitsValue? cs = some n ↔ IsNumeral cs n := by
  unfold digitsValue?
  split_ifs with h
  · refine iff_of_false (by simp) fun hnumeral => ?_
    rcases Bool.or_eq_true_iff.mp h with hempty | hother
    · exact hnumeral.ne_nil (List.isEmpty_iff.mp hempty)
    · rw [List.all_eq_true.mpr hnumeral.isDigit] at hother
      cases hother
  · simp only [Bool.or_eq_true, not_or, Bool.not_eq_true', Bool.not_eq_false, List.isEmpty_iff, List.all_eq_true] at h
    obtain ⟨hnonempty, hdigits⟩ := h
    rw [Option.some_inj]
    constructor
    · rintro rfl
      exact isNumeral_number hdigits hnonempty
    · exact IsNumeral.number_eq

theorem IsNumeral.not_cons {c : Char} (hc : Text.isDigit c = false) {cs : List Char} {n : Nat} : ¬ IsNumeral (c :: cs) n := by
  intro h
  rw [h.isDigit c List.mem_cons_self] at hc
  cases hc

/-! ## Texts -/

/-- The text is a numeral of the number, a plus sign in front of it or not. -/
def WritesNatural (text : String) (n : Nat) : Prop := IsNumeral text.toList n ∨ ∃ digits, text.toList = '+' :: digits ∧ IsNumeral digits n

/-- The text writes a natural number, or it is a minus sign and a numeral of a number that is not above zero. -/
def WritesInteger (text : String) (n : Int) : Prop :=
  0 ≤ n ∧ WritesNatural text n.toNat ∨ n ≤ 0 ∧ ∃ digits, text.toList = '-' :: digits ∧ IsNumeral digits n.natAbs

section

variable {text : String}

theorem unsigned64?_eq_some_iff {v : UInt64} : unsigned64? text = some v ↔ WritesNatural text v.toNat := by
  have hread : ∀ digits, ((digitsValue? digits).bind fun n => if n < UInt64.size then some (UInt64.ofNat n) else none) = some v ↔
      IsNumeral digits v.toNat := by
    intro digits
    rw [Option.bind_eq_some_iff]
    constructor
    · rintro ⟨n, hn, hfits⟩
      split_ifs at hfits with hbelow
      rw [← Option.some_inj.mp hfits, UInt64.toNat_ofNat_of_lt' hbelow]
      exact digitsValue?_eq_some_iff.mp hn
    · intro h
      refine ⟨v.toNat, digitsValue?_eq_some_iff.mpr h, ?_⟩
      rw [if_pos v.toNat_lt_size, UInt64.ofNat_toNat]
  unfold unsigned64? WritesNatural
  rcases text.toList with _ | ⟨c, rest⟩
  · rw [hread]
    simp
  · by_cases hplus : c = '+'
    · subst hplus
      simp [hread, IsNumeral.not_cons (show isDigit '+' = false by decide)]
    · simp [hread, hplus]

theorem integer?_eq_some_iff {n : Int} : integer? text = some n ↔ WritesInteger text n := by
  have hplain : ∀ digits, (digitsValue? digits).map Int.ofNat = some n ↔ 0 ≤ n ∧ IsNumeral digits n.toNat := by
    intro digits
    rw [Option.map_eq_some_iff]
    constructor
    · rintro ⟨m, hm, rfl⟩
      exact ⟨Int.natCast_nonneg m, digitsValue?_eq_some_iff.mp hm⟩
    · rintro ⟨hnonneg, h⟩
      exact ⟨n.toNat, digitsValue?_eq_some_iff.mpr h, Int.toNat_of_nonneg hnonneg⟩
  have hminus : ∀ digits, ((digitsValue? digits).map fun m => -(m : Int)) = some n ↔ n ≤ 0 ∧ IsNumeral digits n.natAbs := by
    intro digits
    simp only [Option.map_eq_some_iff, Option.bind_eq_bind, Option.bind_eq_some_iff, Option.pure_def, Option.some_inj]
    constructor
    · rintro ⟨-, ⟨m, hm, rfl⟩, rfl⟩
      rw [Int.natAbs_neg, Int.natAbs_natCast]
      exact ⟨by omega, digitsValue?_eq_some_iff.mp hm⟩
    · rintro ⟨hnonpos, h⟩
      exact ⟨n.natAbs, ⟨n.natAbs, digitsValue?_eq_some_iff.mpr h, rfl⟩, by omega⟩
  unfold integer? WritesInteger WritesNatural
  rcases text.toList with _ | ⟨c, rest⟩
  · rw [hplain]
    simp
  · by_cases hplus : c = '+'
    · subst hplus
      simp [hplain, IsNumeral.not_cons (show isDigit '+' = false by decide)]
    · by_cases hdash : c = '-'
      · subst hdash
        refine (hminus rest).trans ?_
        simp [IsNumeral.not_cons (show isDigit '-' = false by decide)]
      · simp [hplain, hplus, hdash]

theorem signed32?_eq_some_iff {v : Int32} : signed32? text = some v ↔ WritesInteger text v.toInt := by
  rw [signed32?, Option.bind_eq_some_iff]
  constructor
  · rintro ⟨n, hn, hfits⟩
    split_ifs at hfits with hwithin
    have hbelow : n < 2147483648 := Int.lt_add_one_of_le hwithin.2
    rw [← Option.some_inj.mp hfits, Int32.toInt_ofInt_of_le hwithin.1 hbelow]
    exact integer?_eq_some_iff.mp hn
  · intro h
    refine ⟨v.toInt, integer?_eq_some_iff.mpr h, ?_⟩
    rw [if_pos ⟨v.minValue_le_toInt, v.toInt_le⟩, Int32.ofInt_toInt]

end

/-- The largest natural number of 64 bits is read, and the next one is not read as a smaller one. -/
example : unsigned64? "+018446744073709551615" = some 18446744073709551615 ∧ unsigned64? "18446744073709551616" = none := by decide +kernel

end LoadGenerator.Text
