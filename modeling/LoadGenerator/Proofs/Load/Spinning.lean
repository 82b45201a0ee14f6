import LoadGenerator.Proofs.Binary64.Integers
import LoadGenerator.Proofs.Load.Workers

/-!
# A loop that never stops looking

The counter of a processor worker wraps at a multiple of the interval at which the loop looks at its token. So the loop looks at every iteration whose number, counted from one and without a wrap, is such a multiple, and at no other, however long it goes on. Its accumulator counts modulo a billion and one, so it stays among the whole numbers that binary64 adds without rounding.
-/

namespace LoadGenerator.Load.Processor

/-! ## Iterations -/

/-- What the loop holds after a number of iterations, as long as it goes on. -/
def Spin.iterated (n : Nat) : Spin := ⟨UInt32.ofNat n, n % (accumulatorLimit + 1)⟩

/-- The loop looks by the true number of the iteration, however often the counter has wrapped. -/
theorem Spin.polls_iterated (n : Nat) : (Spin.iterated n).polls = true ↔ 1024 ∣ n + 1 := by
  have hcount : (Spin.iterated n).count.toNat = n % 2 ^ 32 := UInt32.toNat_ofNat'
  rw [Spin.polls_iff, hcount]
  omega

/-- The accumulator starts again where a count modulo the number behind its limit does. -/
theorem succ_mod_accumulatorLimit (n : Nat) :
    (if accumulatorLimit < n % (accumulatorLimit + 1) + 1 then 0 else n % (accumulatorLimit + 1) + 1) = (n + 1) % (accumulatorLimit + 1) := by
  unfold accumulatorLimit
  split_ifs <;> omega

theorem Spin.next_iterated (n : Nat) (cancelled : Bool) :
    (Spin.iterated n).next cancelled = if 1024 ∣ n + 1 ∧ cancelled = true then none else some (Spin.iterated (n + 1)) := by
  have hcount : UInt32.ofNat n + 1 = UInt32.ofNat (n + 1) := by
    rw [UInt32.ofNat_add]
    rfl
  unfold Spin.next
  simp only [Bool.and_eq_true, Spin.polls_iterated]
  refine if_congr Iff.rfl rfl (congrArg some ?_)
  rw [Spin.iterated, Spin.iterated, succ_mod_accumulatorLimit, hcount]

/-- Some iteration among the first `n` looked at the token, and saw it cancelled. -/
def Saw (cancelled : Nat → Bool) (n : Nat) : Prop := ∃ k < n, 1024 ∣ k + 1 ∧ cancelled k = true

theorem saw_succ_iff {cancelled : Nat → Bool} {n : Nat} :
    Saw cancelled (n + 1) ↔ Saw cancelled n ∨ 1024 ∣ n + 1 ∧ cancelled n = true := by
  constructor
  · rintro ⟨k, hk, hlooks, hcancelled⟩
    rcases Nat.lt_succ_iff_lt_or_eq.mp hk with hless | rfl
    · exact .inl ⟨k, hless, hlooks, hcancelled⟩
    · exact .inr ⟨hlooks, hcancelled⟩
  · rintro (⟨k, hk, hlooks⟩ | hlooks)
    · exact ⟨k, Nat.lt_succ_of_lt hk, hlooks⟩
    · exact ⟨n, Nat.lt_succ_self n, hlooks⟩

/-- The loop goes on until one of its looks sees the token cancelled. -/
theorem after_of_not_saw {cancelled : Nat → Bool} {n : Nat} (h : ¬ Saw cancelled n) : after cancelled n = some (Spin.iterated n) := by
  induction n with
  | zero => rfl
  | succ n ih =>
    obtain ⟨hbefore, hlooks⟩ := not_or.mp (mt saw_succ_iff.mpr h)
    rw [after, ih hbefore, Option.bind_some, Spin.next_iterated, if_neg hlooks]

theorem after_of_saw {cancelled : Nat → Bool} {n : Nat} (h : Saw cancelled n) : after cancelled n = none := by
  induction n with
  | zero =>
    obtain ⟨k, hk, -⟩ := h
    exact absurd hk (Nat.not_lt_zero k)
  | succ n ih =>
    rw [after]
    by_cases hbefore : Saw cancelled n
    · rw [ih hbefore]
      rfl
    · rw [after_of_not_saw hbefore, Option.bind_some, Spin.next_iterated, if_pos ((saw_succ_iff.mp h).resolve_left hbefore)]

theorem after_eq_none_iff {cancelled : Nat → Bool} {n : Nat} : after cancelled n = none ↔ Saw cancelled n := by
  refine ⟨fun hnone => ?_, after_of_saw⟩
  by_contra hnot
  rw [after_of_not_saw hnot] at hnone
  cases hnone

theorem eq_iterated_of_after {cancelled : Nat → Bool} {n : Nat} {spin : Spin} (h : after cancelled n = some spin) : spin = Spin.iterated n := by
  have hnot : ¬ Saw cancelled n := by
    intro hsaw
    rw [after_of_saw hsaw] at h
    cases h
  rw [after_of_not_saw hnot] at h
  exact (Option.some.inj h).symm

/-- Among any 1024 iterations one looks at the token. -/
theorem saw_of_cancelled {cancelled : Nat → Bool} {n : Nat} (h : ∀ k, n ≤ k → cancelled k = true) : Saw cancelled (n + 1024) := by
  have hplace : n ≤ n + (1023 - n % 1024) := Nat.le_add_right _ _
  exact ⟨n + (1023 - n % 1024), by omega, by omega, h _ hplace⟩

/-! ## The accumulator in binary64 -/

/-- What one iteration makes of the accumulator in binary64 arithmetic. -/
def accumulate (accumulator : Binary64) : Binary64 :=
  let sum := accumulator.add .one
  if Binary64.ofNat accumulatorLimit < sum then .zero else sum

theorem isNat_accumulate {accumulator : Binary64} {n : Nat} (h : accumulator.IsNat n) (hle : n ≤ accumulatorLimit) :
    (accumulate accumulator).IsNat (if accumulatorLimit < n + 1 then 0 else n + 1) := by
  unfold accumulatorLimit at hle
  have hsum := h.add Binary64.isNat_one (by omega)
  have hlimit : (Binary64.ofNat accumulatorLimit).IsNat accumulatorLimit := Binary64.isNat_ofNat (by decide)
  unfold accumulate
  dsimp only
  simp only [hlimit.lt_iff hsum]
  split_ifs
  · exact Binary64.isNat_zero
  · exact hsum

theorem isNat_iterate_accumulate (n : Nat) : (accumulate^[n] .zero).IsNat (n % (accumulatorLimit + 1)) := by
  induction n with
  | zero => exact Binary64.isNat_zero
  | succ n ih =>
    rw [Function.iterate_succ_apply', ← succ_mod_accumulatorLimit]
    exact isNat_accumulate ih (Nat.lt_succ_iff.mp (Nat.mod_lt _ (Nat.succ_pos _)))

/-! ## Whole runs -/

/-- The processor worker of a run goes through the iterations of the loop. -/
theorem afterSteps_spinning (size : Nat) (cancelled : Nat → Bool) (directory : Directory) (n : Nat) :
    (WorkerStage.spinning .start).afterSteps size cancelled directory n =
      ((after cancelled n).elim (.ended none) .spinning, directory) := by
  induction n with
  | zero => rfl
  | succ n ih =>
    rw [WorkerStage.afterSteps_succ, ih, after]
    cases after cancelled n with
    | none => rfl
    | some spin =>
      rw [Option.elim_some, Option.bind_some]
      cases hnext : spin.next (cancelled n) with
      | none => simp [WorkerStage.next, hnext]
      | some rest => simp [WorkerStage.next, hnext]

/-- What the loop keeps to after a number of iterations, for a token that is cancelled at these iterations, the first one being iteration 0. -/
structure KeepsPolling (cancelled : Nat → Bool) (n : Nat) : Prop where
  /-- The loop has ended exactly where one of the iterations 1023, 2047, 3071 and so on was there to see the token cancelled. -/
  ended : after cancelled n = none ↔ ∃ k < n, 1024 ∣ k + 1 ∧ cancelled k = true
  /-- The counter is only known up to its wrap, but the next iteration looks at the token by its true number. -/
  polls : ∀ spin, after cancelled n = some spin → spin.count.toNat = n % 2 ^ 32 ∧ (spin.polls = true ↔ 1024 ∣ n + 1)
  bounded : ∀ spin, after cancelled n = some spin → spin.accumulator ≤ 10 ^ 9
  /-- The accumulator of binary64 is the whole number that the loop is said to hold, and the next addition to it is not rounded. -/
  exact : ∀ spin, after cancelled n = some spin →
    (accumulate^[n] .zero).IsNat spin.accumulator ∧ ((accumulate^[n] .zero).add .one).IsNat (spin.accumulator + 1)
  /-- From an iteration on at which the token is cancelled, there are 1024 more at the most. -/
  prompt : (∀ k, n ≤ k → cancelled k = true) → after cancelled (n + 1024) = none
  /-- The processor worker of a run is at the same iteration after as many steps, or has ended with the loop. -/
  worker : ∀ size directory, (WorkerStage.spinning .start).afterSteps size cancelled directory n =
    ((after cancelled n).elim (.ended none) .spinning, directory)

/-- However long the loop goes on, and however often its counter wraps, it looks at its token every 1024th iteration, and its accumulator stays a whole number up to a billion that binary64 holds and increments without rounding. -/
theorem loop_keeps_polling (cancelled : Nat → Bool) (n : Nat) : KeepsPolling cancelled n where
  ended := after_eq_none_iff
  polls := by
    intro spin hspin
    obtain rfl := eq_iterated_of_after hspin
    exact ⟨UInt32.toNat_ofNat', Spin.polls_iterated n⟩
  bounded := by
    intro spin hspin
    obtain rfl := eq_iterated_of_after hspin
    exact Nat.lt_succ_iff.mp (Nat.mod_lt n (Nat.succ_pos accumulatorLimit))
  exact := by
    intro spin hspin
    obtain rfl := eq_iterated_of_after hspin
    have hexact := isNat_iterate_accumulate n
    have hbound : n % (accumulatorLimit + 1) < accumulatorLimit + 1 := Nat.mod_lt n (Nat.succ_pos accumulatorLimit)
    refine ⟨hexact, hexact.add Binary64.isNat_one ?_⟩
    unfold accumulatorLimit at hbound ⊢
    omega
  prompt h := after_eq_none_iff.mpr (saw_of_cancelled h)
  worker size directory := afterSteps_spinning size cancelled directory n

/-- The iteration in which the counter wraps looks at the token, and so does the one 1024 later. -/
example : (Spin.iterated 4294967295).polls = true ∧ (Spin.iterated 4294967296).polls = false ∧ (Spin.iterated 4294968319).polls = true := by decide

end LoadGenerator.Load.Processor
