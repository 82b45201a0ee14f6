import LoadGenerator.Proofs.Load.Validation

/-!
# The checks of a spec and their order

Validation is a row of checks, each with the violation that it reports, and stops at the first that fails. So what it reports depends on no quantity that the mode of the spec does not use, and a higher ceiling can only let it go further.
-/

namespace LoadGenerator.Load

/-! ## Checks -/

/-- The checks of a spec, in the order in which they are made. -/
inductive Check where
  | duration
  | durationCeiling
  | latency
  | errorRate
  | parallelism
  | allocMb
  | ioBytes
  | allocCeiling
  | parallelismCeiling
  deriving DecidableEq

namespace Check

def all : List Check :=
  [duration, durationCeiling, latency, errorRate, parallelism, allocMb, ioBytes, allocCeiling, parallelismCeiling]

/-- The checks that are made before this one. -/
def before (check : Check) : List Check := all.takeWhile (· ≠ check)

/-- What the check asks of a spec. -/
def Holds (spec : Spec) (limits : Limits) : Check → Prop
  | duration => 0 < spec.duration.nanoseconds
  | durationCeiling => limits.maxDuration = 0 ∨ spec.duration.nanoseconds ≤ limits.maxDuration
  | latency => 0 ≤ spec.latency.nanoseconds
  | errorRate => Binary64.zero ≤ spec.errorRate ∧ spec.errorRate ≤ Binary64.one
  | parallelism => spec.mode.usesCpu = true → 0 < spec.parallelism
  | allocMb => spec.mode.usesMemory = true → 0 < spec.allocMb
  | ioBytes => spec.mode.usesDisk = true → 0 < spec.ioBytes
  | allocCeiling => spec.mode.usesMemory = true → limits.maxAllocMb ≤ 0 ∨ spec.allocMb ≤ limits.maxAllocMb
  | parallelismCeiling => spec.mode.usesCpu = true → limits.maxParallelism ≤ 0 ∨ spec.parallelism ≤ limits.maxParallelism

instance (spec : Spec) (limits : Limits) : (check : Check) → Decidable (check.Holds spec limits)
  | duration => inferInstanceAs (Decidable (0 < _))
  | durationCeiling => inferInstanceAs (Decidable (_ ∨ _))
  | latency => inferInstanceAs (Decidable (0 ≤ _))
  | errorRate => inferInstanceAs (Decidable (_ ∧ _))
  | parallelism | allocMb | ioBytes | allocCeiling | parallelismCeiling => inferInstanceAs (Decidable (_ → _))

/-- What is reported where the check fails: the offending value, with the ceiling that it exceeds. -/
def violation (spec : Spec) (limits : Limits) : Check → Violation
  | duration => .duration spec.duration
  | durationCeiling => .durationCeiling spec.duration.nanoseconds.toNat limits.maxDuration
  | latency => .latency spec.latency
  | errorRate => .errorRate spec.errorRate
  | parallelism => .parallelism spec.mode spec.parallelism
  | allocMb => .allocMb spec.mode spec.allocMb
  | ioBytes => .ioBytes spec.ioBytes
  | allocCeiling => .allocCeiling spec.allocMb limits.maxAllocMb
  | parallelismCeiling => .parallelismCeiling spec.parallelism limits.maxParallelism

end Check

/-! ## The first violation -/

section

variable {spec other : Spec} {limits looser : Limits}

/-- Makes one check. -/
def Spec.check (spec : Spec) (limits : Limits) (check : Check) : Except Violation Unit :=
  require (decide (check.Holds spec limits)) (check.violation spec limits)

theorem Spec.check_eq_ok {check : Check} (h : check.Holds spec limits) : spec.check limits check = .ok () := by
  rw [Spec.check, decide_eq_true h]
  rfl

theorem Spec.check_eq_error {check : Check} (h : ¬ check.Holds spec limits) :
    spec.check limits check = .error (check.violation spec limits) := by
  rw [Spec.check, decide_eq_false h]
  rfl

/-- A condition that says what the check asks may stand for it at the head of a row. -/
theorem Spec.require_bind_eq (check : Check) {condition : Bool} (h : condition = true ↔ check.Holds spec limits)
    {rest rest' : Unit → Except Violation Unit} (hrest : rest () = rest' ()) :
    (require condition (check.violation spec limits) >>= rest) = (spec.check limits check >>= rest') := by
  rw [Spec.check, ← Bool.eq_iff_iff.mpr (h.trans decide_eq_true_iff.symm)]
  exact bind_congr fun _ => hrest

/-- Validation makes one check after another. -/
theorem Spec.validate_eq_forM (spec : Spec) (limits : Limits) : spec.validate limits = forM Check.all (spec.check limits) := by
  unfold validate
  by_cases hduration : 0 < spec.duration.nanoseconds
  · -- A positive duration has a length, so that the check of the ceiling is one comparison.
    have hlength : spec.duration.length? = some spec.duration.nanoseconds.toNat := if_neg (by omega)
    rw [hlength, Check.all, ← bind_pure (require (!spec.mode.usesCpu || decide (limits.maxParallelism ≤ 0) || _) _)]
    refine require_bind_eq .duration (by simp [Check.Holds]) ?_
    refine require_bind_eq .durationCeiling (by simp [Check.Holds]) ?_
    refine require_bind_eq .latency (by simp [Check.Holds]) ?_
    refine require_bind_eq .errorRate (by simp [Check.Holds, isRate]) ?_
    refine require_bind_eq .parallelism (by simp [Check.Holds, imp_iff_not_or]) ?_
    refine require_bind_eq .allocMb (by simp [Check.Holds, imp_iff_not_or]) ?_
    refine require_bind_eq .ioBytes (by simp [Check.Holds, imp_iff_not_or]) ?_
    refine require_bind_eq .allocCeiling (by simp [Check.Holds, imp_iff_not_or, or_assoc]) ?_
    exact require_bind_eq .parallelismCeiling (by simp [Check.Holds, imp_iff_not_or, or_assoc]) rfl
  · rw [decide_eq_false hduration, Check.all, List.forM_cons, check_eq_error (show ¬ Check.duration.Holds spec limits from hduration)]
    rfl

theorem Spec.acceptable_iff_forall_holds : spec.Acceptable limits ↔ ∀ check : Check, check.Holds spec limits := by
  refine ⟨fun h check => ?_, fun h => ?_⟩
  · cases check
    exacts [h.duration, h.durationCeiling, h.latency, h.errorRate, h.parallelism, h.allocMb, h.ioBytes, h.allocCeiling, h.parallelismCeiling]
  · exact ⟨h .duration, h .durationCeiling, h .latency, h .errorRate, h .parallelism, h .allocMb, h .ioBytes, h .allocCeiling,
      h .parallelismCeiling⟩

/-- A row of checks ends at the first that fails. -/
theorem Spec.forM_check_eq_error_iff {checks : List Check} {violation : Violation} :
    forM checks (spec.check limits) = .error violation ↔
      ∃ front check back, checks = front ++ check :: back ∧ (∀ earlier ∈ front, earlier.Holds spec limits) ∧
        ¬ check.Holds spec limits ∧ violation = check.violation spec limits := by
  induction checks with
  | nil => exact iff_of_false (fun h => by cases h) fun ⟨front, check, back, h, _⟩ => by simp at h
  | cons first rest ih =>
    rw [List.forM_cons]
    by_cases hfirst : first.Holds spec limits
    · rw [check_eq_ok hfirst]
      refine ih.trans ⟨?_, ?_⟩
      · rintro ⟨front, check, back, rfl, hfront, hfails⟩
        exact ⟨first :: front, check, back, rfl, List.forall_mem_cons.mpr ⟨hfirst, hfront⟩, hfails⟩
      · rintro ⟨front, check, back, heq, hfront, hfails, hviolation⟩
        cases front with
        | nil =>
          obtain ⟨rfl, -⟩ := List.cons.inj heq
          exact absurd hfirst hfails
        | cons _ front =>
          obtain ⟨rfl, rfl⟩ := List.cons.inj heq
          exact ⟨front, check, back, rfl, (List.forall_mem_cons.mp hfront).2, hfails, hviolation⟩
    · rw [check_eq_error hfirst]
      refine ⟨fun h => ⟨[], first, rest, rfl, List.forall_mem_nil _, hfirst, (Except.error.inj h).symm⟩, ?_⟩
      rintro ⟨front, check, back, heq, hfront, -, rfl⟩
      cases front with
      | nil =>
        obtain ⟨rfl, -⟩ := List.cons.inj heq
        rfl
      | cons _ front =>
        obtain ⟨rfl, -⟩ := List.cons.inj heq
        exact absurd (hfront _ List.mem_cons_self) hfirst

theorem Check.all_eq (check : Check) : ∃ back, Check.all = check.before ++ check :: back := by
  cases check <;> exact ⟨_, rfl⟩

theorem Check.eq_before {check : Check} {front back : List Check} (h : Check.all = front ++ check :: back) : front = check.before := by
  have hnodup : (front ++ check :: back).Nodup := h ▸ (by decide : Check.all.Nodup)
  have hfront : ∀ other ∈ front, decide (other ≠ check) = true := by
    intro other hother
    exact decide_eq_true ((List.nodup_append.mp hnodup).2.2 other hother check List.mem_cons_self)
  rw [Check.before, h, List.takeWhile_append_of_pos hfront, List.takeWhile_cons_of_neg (by simp), List.append_nil]

/-- The check fails, and those before it do not. -/
structure Check.FirstFails (spec : Spec) (limits : Limits) (check : Check) : Prop where
  before : ∀ earlier ∈ check.before, earlier.Holds spec limits
  fails : ¬ check.Holds spec limits

theorem Spec.validate_eq_error_iff {violation : Violation} :
    spec.validate limits = .error violation ↔ ∃ check : Check, check.FirstFails spec limits ∧ violation = check.violation spec limits := by
  rw [validate_eq_forM, forM_check_eq_error_iff]
  constructor
  · rintro ⟨front, check, back, heq, hfront, hfails, hviolation⟩
    exact ⟨check, ⟨Check.eq_before heq ▸ hfront, hfails⟩, hviolation⟩
  · rintro ⟨check, ⟨hbefore, hfails⟩, hviolation⟩
    obtain ⟨back, heq⟩ := check.all_eq
    exact ⟨check.before, check, back, heq, hbefore, hfails, hviolation⟩

/-! ## What validation does not look at -/

/-- The specs differ in quantities that their mode does not use at most. -/
structure Spec.AgreesWith (spec other : Spec) : Prop where
  mode : spec.mode = other.mode
  duration : spec.duration = other.duration
  latency : spec.latency = other.latency
  errorRate : spec.errorRate = other.errorRate
  parallelism : spec.mode.usesCpu = true → spec.parallelism = other.parallelism
  allocMb : spec.mode.usesMemory = true → spec.allocMb = other.allocMb
  ioBytes : spec.mode.usesDisk = true → spec.ioBytes = other.ioBytes

/-- A check of two specs is the same where it asks the same and, if it fails, reports the same. -/
theorem Spec.check_congr {check : Check} (hholds : check.Holds spec limits ↔ check.Holds other limits)
    (hviolation : ¬ check.Holds spec limits → check.violation spec limits = check.violation other limits) :
    spec.check limits check = other.check limits check := by
  by_cases h : check.Holds spec limits
  · rw [check_eq_ok h, check_eq_ok (hholds.mp h)]
  · rw [check_eq_error h, check_eq_error (mt hholds.mpr h), hviolation h]

theorem Spec.AgreesWith.check_eq (h : spec.AgreesWith other) (limits : Limits) (check : Check) :
    spec.check limits check = other.check limits check := by
  obtain ⟨mode, duration, allocMb, parallelism, ioBytes, latency, errorRate⟩ := spec
  obtain ⟨rfl, rfl, rfl, rfl, hparallelism, hallocMb, hioBytes⟩ := h
  dsimp only at hparallelism hallocMb hioBytes
  -- A check of a quantity holds where the mode does not use it, and otherwise finds the same quantity in both.
  cases check with
  | duration | durationCeiling | latency | errorRate => exact check_congr Iff.rfl fun _ => rfl
  | parallelism | parallelismCeiling =>
    refine check_congr (forall_congr' fun hused => by rw [hparallelism hused]) fun hfails => ?_
    simp only [Check.violation, hparallelism (Classical.not_imp.mp hfails).1]
  | allocMb | allocCeiling =>
    refine check_congr (forall_congr' fun hused => by rw [hallocMb hused]) fun hfails => ?_
    simp only [Check.violation, hallocMb (Classical.not_imp.mp hfails).1]
  | ioBytes =>
    refine check_congr (forall_congr' fun hused => by rw [hioBytes hused]) fun hfails => ?_
    simp only [Check.violation, hioBytes (Classical.not_imp.mp hfails).1]

/-! ## Ceilings -/

/-- No ceiling is lower in the second limits: each is as high or higher, or gone. -/
structure Limits.LoosenTo (limits looser : Limits) : Prop where
  duration : looser.maxDuration = 0 ∨ limits.maxDuration ≠ 0 ∧ limits.maxDuration ≤ looser.maxDuration
  allocMb : looser.maxAllocMb ≤ 0 ∨ 0 < limits.maxAllocMb ∧ limits.maxAllocMb ≤ looser.maxAllocMb
  parallelism : looser.maxParallelism ≤ 0 ∨ 0 < limits.maxParallelism ∧ limits.maxParallelism ≤ looser.maxParallelism

/-- A quantity that is under a ceiling is under a looser one. -/
theorem under_of_looser {quantity ceiling looser : Int32} (hlooser : looser ≤ 0 ∨ 0 < ceiling ∧ ceiling ≤ looser)
    (h : ceiling ≤ 0 ∨ quantity ≤ ceiling) : looser ≤ 0 ∨ quantity ≤ looser := by
  simp only [Int32.le_iff_toInt_le, Int32.lt_iff_toInt_lt] at *
  omega

theorem Limits.LoosenTo.holds (h : limits.LoosenTo looser) {check : Check} (hholds : check.Holds spec limits) : check.Holds spec looser := by
  cases check with
  | durationCeiling =>
    have hunder : limits.maxDuration = 0 ∨ spec.duration.nanoseconds ≤ limits.maxDuration := hholds
    have hceiling := h.duration
    show looser.maxDuration = 0 ∨ spec.duration.nanoseconds ≤ looser.maxDuration
    omega
  | allocCeiling => exact fun hused => under_of_looser h.allocMb (hholds hused)
  | parallelismCeiling => exact fun hused => under_of_looser h.parallelism (hholds hused)
  | _ => exact hholds

end

/-! ## Validation -/

/-- Validation accepts a spec just if it is acceptable, which no rate that is not a number is, and otherwise reports the first check that fails, with the value that offends. It looks at nothing that the mode of the spec does not use, and under looser limits it accepts what it accepted before and reports no earlier check than before. -/
theorem validation_is_exact (spec : Spec) (limits : Limits) :
    (spec.validate limits = .ok () ↔ spec.Acceptable limits) ∧
      (spec.errorRate.isNan = true → ¬ spec.Acceptable limits) ∧
      (∀ violation, spec.validate limits = .error violation ↔
        ∃ check : Check, check.FirstFails spec limits ∧ violation = check.violation spec limits) ∧
      (∀ other, spec.AgreesWith other → spec.validate limits = other.validate limits) ∧
      ∀ looser, limits.LoosenTo looser →
        (spec.validate limits = .ok () → spec.validate looser = .ok ()) ∧
          ∀ check later : Check, check.FirstFails spec limits → later.FirstFails spec looser → later ∉ check.before := by
  refine ⟨Spec.validate_eq_ok_iff, ?_, fun violation => Spec.validate_eq_error_iff, ?_, ?_⟩
  · intro hnan hacceptable
    have hnumber := hacceptable.errorRate.1.2.1
    rw [hnan] at hnumber
    cases hnumber
  · intro other hagrees
    rw [Spec.validate_eq_forM, Spec.validate_eq_forM, funext (hagrees.check_eq limits)]
  · intro looser hlooser
    refine ⟨fun hok => ?_, fun check later hfirst hlater hbefore => ?_⟩
    · rw [Spec.validate_eq_ok_iff, Spec.acceptable_iff_forall_holds] at hok ⊢
      exact fun check => hlooser.holds (hok check)
    · exact hlater.fails (hlooser.holds (hfirst.before later hbefore))

/-- A spec over two ceilings is refused for its memory; where that ceiling is raised, it is refused for its workers, a later check. -/
theorem validation_is_exact_two_ceilings :
    let spec : Spec := { mode := .cpuMem, duration := ⟨1⟩, allocMb := 2, parallelism := 9, ioBytes := -1 }
    let other : Spec := { spec with ioBytes := 7 }
    let limits : Limits := ⟨0, 1, 8⟩
    let looser : Limits := ⟨0, 4, 8⟩
    spec.AgreesWith other ∧ limits.LoosenTo looser ∧ spec.validate limits = .error (.allocCeiling 2 1) ∧
      other.validate limits = .error (.allocCeiling 2 1) ∧ spec.validate looser = .error (.parallelismCeiling 9 8) ∧
      Check.parallelismCeiling ∉ Check.allocCeiling.before := by
  intro spec other limits looser
  have hagrees : spec.AgreesWith other := ⟨rfl, rfl, rfl, rfl, fun _ => rfl, fun _ => rfl, fun h => by cases h⟩
  have hlooser : limits.LoosenTo looser := ⟨.inl rfl, .inr (by decide), .inr (by decide)⟩
  have hmemory : Check.allocCeiling.FirstFails spec limits := ⟨by decide, by decide⟩
  have hworkers : Check.parallelismCeiling.FirstFails spec looser := ⟨by decide, by decide⟩
  obtain ⟨-, -, hreports, hagree, hloosen⟩ := validation_is_exact spec limits
  have hrefused := (hreports (.allocCeiling 2 1)).mpr ⟨.allocCeiling, hmemory, rfl⟩
  refine ⟨hagrees, hlooser, hrefused, (hagree other hagrees) ▸ hrefused, ?_, (hloosen looser hlooser).2 _ _ hmemory hworkers⟩
  exact ((validation_is_exact spec looser).2.2.1 _).mpr ⟨.parallelismCeiling, hworkers, rfl⟩

end LoadGenerator.Load
