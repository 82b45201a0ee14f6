import LoadGenerator.Load.Engine
import Mathlib.Tactic

/-!
# Which specs are accepted

Validation reports the first violation in a fixed order, but whether a spec is accepted depends on no order: each quantity that its mode uses is in range and under its ceiling. The injected failure of an accepted spec is one comparison of a draw with the rate, also where the rate alone decides.
-/

namespace LoadGenerator.Load

/-! ## Acceptance -/

/-- What validation asks of a spec. -/
@[mk_iff] structure Spec.Acceptable (spec : Spec) (limits : Limits) : Prop where
  duration : 0 < spec.duration.nanoseconds
  durationCeiling : limits.maxDuration = 0 ∨ spec.duration.nanoseconds ≤ limits.maxDuration
  latency : 0 ≤ spec.latency.nanoseconds
  errorRate : Binary64.zero ≤ spec.errorRate ∧ spec.errorRate ≤ Binary64.one
  parallelism : spec.mode.usesCpu = true → 0 < spec.parallelism
  allocMb : spec.mode.usesMemory = true → 0 < spec.allocMb
  ioBytes : spec.mode.usesDisk = true → 0 < spec.ioBytes
  allocCeiling : spec.mode.usesMemory = true → limits.maxAllocMb ≤ 0 ∨ spec.allocMb ≤ limits.maxAllocMb
  parallelismCeiling : spec.mode.usesCpu = true → limits.maxParallelism ≤ 0 ∨ spec.parallelism ≤ limits.maxParallelism

theorem require_eq_ok_iff {condition : Bool} {violation : Violation} :
    require condition violation = .ok () ↔ condition = true := by
  cases condition <;> simp [require]

theorem require_bind_eq_ok_iff {condition : Bool} {violation : Violation} {rest : Unit → Except Violation Unit} :
    (require condition violation >>= rest) = .ok () ↔ condition = true ∧ rest () = .ok () := by
  cases condition with
  | false => exact iff_of_false (fun h => by cases h) fun h => by cases h.1
  | true => exact (and_iff_right rfl).symm

theorem Spec.validate_eq_ok_iff {spec : Spec} {limits : Limits} : spec.validate limits = .ok () ↔ spec.Acceptable limits := by
  unfold validate
  rw [require_bind_eq_ok_iff, Spec.acceptable_iff, decide_eq_true_iff]
  refine and_congr_right ?_
  intro hduration
  -- A positive duration has a length, so that the check of the ceiling is one comparison.
  have hlength : spec.duration.length? = some spec.duration.nanoseconds.toNat := if_neg (by omega)
  have hceiling : spec.duration.nanoseconds.toNat ≤ limits.maxDuration ↔ spec.duration.nanoseconds ≤ limits.maxDuration := Int.toNat_le
  simp only [hlength, require_bind_eq_ok_iff, require_eq_ok_iff, isRate, Bool.or_eq_true, Bool.not_eq_true', decide_eq_true_iff, beq_iff_eq,
    hceiling, Bool.eq_false_iff, imp_iff_not_or, or_assoc]

theorem attemptWith_of_refused {limits : Limits} {spec : Spec} {violation : Violation} (h : spec.validate limits = .error violation)
    (own : Option Draws) (shared : Draws) : attemptWith limits spec own shared = (.error (.invalid violation), own, shared) := by
  cases own <;> simp [attemptWith, attempt, h]

/-- A text that goes on after another one is not empty. -/
theorem append_ne_empty {front : String} (h : front ≠ "") (back : String) : front ++ back ≠ "" := by
  intro hempty
  exact h (String.append_eq_empty_iff.mp hempty).1

theorem Violation.message_ne_empty (violation : Violation) : violation.message ≠ "" := by
  cases violation <;> (repeat' apply append_ne_empty) <;> decide

/-! ## Injected failures -/

/-- The rate alone decides where any draw between zero and one would. -/
theorem fails_eq_decide (rate : Binary64) {draws : Draws} (hdraw : Binary64.zero ≤ draws.next.1 ∧ draws.next.1 < Binary64.one) :
    (fails rate draws).1 = decide (draws.next.1 < rate) := by
  unfold fails
  split_ifs with hnever halways
  · refine (decide_eq_false ?_).symm
    intro hless
    exact absurd (Int.lt_of_lt_of_le hless.2.2 hnever.2.2) (Int.not_lt.mpr hdraw.1.2.2)
  · exact (decide_eq_true ⟨hdraw.2.1, halways.2.1, Int.lt_of_lt_of_le hdraw.2.2.2 halways.2.2⟩).symm
  · rfl

end LoadGenerator.Load
