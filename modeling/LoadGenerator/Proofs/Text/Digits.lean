import LoadGenerator.Text.Digits
import Mathlib.Tactic

/-!
# Digits that read back

The decimal digits of a number are digits, have no leading zero, and give the number when they are read. Reading goes on from any number, so the lemmas are about digits that follow others.
-/

namespace LoadGenerator.Text

theorem isDigit_digit {n : Nat} (hn : n < 10) : isDigit (digit n) = true := by
  interval_cases n <;> decide

theorem digitValue_digit {n : Nat} (hn : n < 10) : digitValue (digit n) = n := by
  interval_cases n <;> decide

theorem isDigit_iff {c : Char} : isDigit c = true ↔ 48 ≤ c.toNat ∧ c.toNat ≤ 57 := by
  simp only [isDigit, decide_eq_true_eq]
  exact Iff.rfl

theorem digitValue_lt {c : Char} (hc : isDigit c = true) : digitValue c < 10 := by
  rw [isDigit_iff] at hc
  unfold digitValue
  omega

theorem isDigit_of_mem_decimal {n : Nat} {c : Char} (hc : c ∈ decimal n) : isDigit c = true := by
  induction n using Nat.strong_induction_on with
  | _ n ih =>
    rw [decimal] at hc
    split_ifs at hc with hn
    · rw [List.mem_singleton.mp hc]
      exact isDigit_digit hn
    · rcases List.mem_append.mp hc with hfront | hlast
      · exact ih (n / 10) (Nat.div_lt_self (by omega) (by decide)) hfront
      · rw [List.mem_singleton.mp hlast]
        exact isDigit_digit (Nat.mod_lt n (by decide))

theorem decimal_ne_nil (n : Nat) : decimal n ≠ [] := by
  rw [decimal]
  split_ifs <;> simp

theorem head_decimal_ne_zero {n : Nat} (hn : n ≠ 0) : (decimal n).head? ≠ some '0' := by
  induction n using Nat.strong_induction_on with
  | _ n ih =>
    rw [decimal]
    split_ifs with hsmall
    · interval_cases n
      · exact absurd rfl hn
      all_goals decide
    · have hfront := ih (n / 10) (Nat.div_lt_self (by omega) (by decide)) (by omega)
      rwa [List.head?_append_of_ne_nil _ (decimal_ne_nil _)]

theorem decimal_of_lt {n : Nat} (hn : n < 10) : decimal n = [digit n] := by
  rw [decimal, if_pos hn]

/-- The number that digits give when they follow one that was read before. -/
def numberFrom (n : Nat) (cs : List Char) : Nat := cs.foldl (fun n c => 10 * n + digitValue c) n

theorem numberFrom_append (n : Nat) (front back : List Char) :
    numberFrom n (front ++ back) = numberFrom (numberFrom n front) back := List.foldl_append

theorem numberFrom_decimal (n : Nat) : numberFrom 0 (decimal n) = n := by
  induction n using Nat.strong_induction_on with
  | _ n ih =>
    rw [decimal]
    split_ifs with hn
    · simp [numberFrom, digitValue_digit hn]
    · rw [numberFrom_append, ih (n / 10) (Nat.div_lt_self (by omega) (by decide))]
      simp only [numberFrom, List.foldl_cons, List.foldl_nil, digitValue_digit (Nat.mod_lt n (by decide : 0 < 10))]
      omega

/-- More digits make a number at least as many times larger. -/
theorem mul_pow_le_numberFrom (n : Nat) (cs : List Char) : n * 10 ^ cs.length ≤ numberFrom n cs := by
  induction cs generalizing n with
  | nil => simp [numberFrom]
  | cons c cs ih =>
    have hstep := ih (10 * n + digitValue c)
    calc n * 10 ^ (c :: cs).length = 10 * n * 10 ^ cs.length := by rw [List.length_cons, pow_succ]; ring
      _ ≤ (10 * n + digitValue c) * 10 ^ cs.length := Nat.mul_le_mul_right _ (Nat.le_add_right _ _)
      _ ≤ numberFrom n (c :: cs) := hstep

theorem numberFrom_lt (n : Nat) (cs : List Char) (hcs : ∀ c ∈ cs, isDigit c = true) :
    numberFrom n cs < (n + 1) * 10 ^ cs.length := by
  induction cs generalizing n with
  | nil => simp [numberFrom]
  | cons c cs ih =>
    have hvalue := digitValue_lt (hcs c (by simp))
    have hstep := ih (10 * n + digitValue c) fun d hd => hcs d (by simp [hd])
    calc numberFrom n (c :: cs) < (10 * n + digitValue c + 1) * 10 ^ cs.length := hstep
      _ ≤ (10 * (n + 1)) * 10 ^ cs.length := Nat.mul_le_mul_right _ (by omega)
      _ = (n + 1) * 10 ^ (c :: cs).length := by rw [List.length_cons, pow_succ]; ring

theorem numberFrom_replicate_zero (n count : Nat) : numberFrom n (List.replicate count '0') = n * 10 ^ count := by
  induction count generalizing n with
  | zero => simp [numberFrom]
  | succ count ih =>
    rw [List.replicate_succ, show numberFrom n ('0' :: List.replicate count '0') =
      numberFrom (10 * n + digitValue '0') (List.replicate count '0') from rfl, ih]
    rw [show digitValue '0' = 0 from rfl, pow_succ]
    ring

end LoadGenerator.Text
