import LoadGenerator.Load.Worker.Memory
import LoadGenerator.Proofs.Load.Progress
import LoadGenerator.Proofs.Service.Admission

/-!
# What becomes of the quantities of a spec

Quantities are signed when they are checked and unsigned when they are used, and those below zero would be taken as zero on the way. A spec that validation accepts never comes to that: its spans are lengths of time, to the nanosecond, and each quantity that its mode uses is used as it stands. So the run has the deadline that it was given, no more workers than the ceiling on them and one allow, and at no time more memory than its ceiling.
-/

namespace LoadGenerator

/-! ## Spans -/

namespace Span

/-- The span as a length of time, the same to the nanosecond. -/
structure Lasts (span : Span) (length : Nat) : Prop where
  length? : span.length? = some length
  nanoseconds : span.nanoseconds = length
  /-- The whole seconds and the nanoseconds above them. -/
  parts : span.parts = (((length / 1000000000 : Nat) : Int), ((length % 1000000000 : Nat) : Int))

theorem lasts_of_nonneg {span : Span} (h : 0 ≤ span.nanoseconds) : span.Lasts span.nanoseconds.toNat := by
  have hlength : span.nanoseconds = (span.nanoseconds.toNat : Int) := (Int.toNat_of_nonneg h).symm
  refine ⟨if_neg (by omega), hlength, ?_⟩
  generalize span.nanoseconds.toNat = length at hlength
  rw [parts, hlength, Int.fdiv_eq_ediv_of_nonneg _ (by decide), Int.fmod_eq_emod_of_nonneg _ (by decide)]
  rfl

end Span

namespace Load

/-! ## Timers -/

theorem Run.mem_schedule {time : Nat} {event : RunEvent} {timer : Nat × RunEvent} {timers : List (Nat × RunEvent)} :
    timer ∈ schedule time event timers ↔ timer = (time, event) ∨ timer ∈ timers := by
  induction timers with
  | nil => simp [schedule]
  | cons first timers ih =>
    rw [schedule]
    split_ifs
    · exact List.mem_cons
    · rw [List.mem_cons, ih, List.mem_cons]
      exact or_left_comm

theorem Run.deadline_mem_agenda_iff {spec : Spec} {cancelAt : Option Nat} {time : Nat} :
    (time, .deadline) ∈ agenda spec cancelAt ↔ time = spec.duration.nanoseconds.toNat := by
  cases cancelAt <;> simp [agenda, mem_schedule]

theorem Run.latencyElapsed_mem_agenda_iff {spec : Spec} {cancelAt : Option Nat} {time : Nat} :
    (time, .latencyElapsed) ∈ agenda spec cancelAt ↔ time = spec.latency.nanoseconds.toNat := by
  cases cancelAt <;> simp [agenda, mem_schedule]

/-! ## Quantities -/

theorem toNatClampNeg_of_pos {quantity : Int32} (h : 0 < quantity) : (quantity.toNatClampNeg : Int) = quantity.toInt :=
  Int32.toNat_toInt quantity ▸ Int.toNat_of_nonneg (Int32.lt_iff_toInt_lt.mp h).le

/-- What a run makes of a spec that was accepted under these limits. -/
structure Spec.Converts (spec : Spec) (limits : Limits) : Prop where
  /-- The deadline comes after the duration of the spec, which is some time. -/
  duration : ∃ length, 0 < length ∧ spec.duration.Lasts length ∧
    ∀ cancelAt time, (time, .deadline) ∈ Run.agenda spec cancelAt ↔ time = length
  latency : ∃ length, spec.latency.Lasts length ∧
    ∀ cancelAt time, (time, .latencyElapsed) ∈ Run.agenda spec cancelAt ↔ time = length
  parallelism : spec.mode.usesCpu = true → (spec.parallelism.toNatClampNeg : Int) = spec.parallelism.toInt
  allocMb : spec.mode.usesMemory = true → (spec.allocMb.toNatClampNeg : Int) = spec.allocMb.toInt
  ioBytes : spec.mode.usesDisk = true → (spec.ioBytes.toNatClampNeg : Int) = spec.ioBytes.toInt
  /-- A mode without processor workers has one worker. -/
  single : spec.mode.usesCpu = false → spec.workerCount = 1
  workers : spec.mode.usesCpu = true → 1 ≤ spec.workerCount ∧ (spec.workerCount : Int) ≤ spec.parallelism.toInt + 1
  workerCeiling : spec.mode.usesCpu = true → 0 < limits.maxParallelism → (spec.workerCount : Int) ≤ limits.maxParallelism.toInt + 1
  memoryCeiling : spec.mode.usesMemory = true → 0 < limits.maxAllocMb →
    ((spec.allocMb.toNatClampNeg * Memory.chunkSize : Nat) : Int) ≤ limits.maxAllocMb.toInt * 1048576

theorem Spec.workerCount_of_usesCpu {spec : Spec} (hused : spec.mode.usesCpu = true) :
    spec.workerCount = spec.parallelism.toNatClampNeg + spec.mode.usesMemory.toNat := by
  have hdisk : spec.mode.usesDisk = false := by cases hmode : spec.mode <;> simp_all [Mode.usesCpu, Mode.usesDisk]
  rw [workerCount, if_pos hused, hdisk]
  rfl

theorem Spec.workerCount_of_not_usesCpu {spec : Spec} (hunused : spec.mode.usesCpu = false) : spec.workerCount = 1 := by
  unfold workerCount
  cases hmode : spec.mode <;> simp_all [Mode.usesCpu, Mode.usesMemory, Mode.usesDisk]

/-- A quantity under a ceiling that is there is no more than the ceiling. -/
theorem toInt_le_of_ceiling {quantity ceiling : Int32} (h : ceiling ≤ 0 ∨ quantity ≤ ceiling) (hceiling : 0 < ceiling) :
    quantity.toInt ≤ ceiling.toInt := by
  simp only [Int32.le_iff_toInt_le, Int32.lt_iff_toInt_lt] at h hceiling
  omega

theorem Spec.Acceptable.converts {spec : Spec} {limits : Limits} (h : spec.Acceptable limits) : spec.Converts limits where
  duration := by
    have hpositive := h.duration
    exact ⟨_, by omega, Span.lasts_of_nonneg hpositive.le, fun _ _ => Run.deadline_mem_agenda_iff⟩
  latency := ⟨_, Span.lasts_of_nonneg h.latency, fun _ _ => Run.latencyElapsed_mem_agenda_iff⟩
  parallelism hused := toNatClampNeg_of_pos (h.parallelism hused)
  allocMb hused := toNatClampNeg_of_pos (h.allocMb hused)
  ioBytes hused := toNatClampNeg_of_pos (h.ioBytes hused)
  single := workerCount_of_not_usesCpu
  workers hused := by
    have hpositive := Int32.lt_iff_toInt_lt.mp (h.parallelism hused)
    have hquantity := toNatClampNeg_of_pos (h.parallelism hused)
    have hmemory := Bool.toNat_le spec.mode.usesMemory
    rw [Int32.toInt_zero] at hpositive
    rw [workerCount_of_usesCpu hused]
    omega
  workerCeiling hused hceiling := by
    have hquantity := toNatClampNeg_of_pos (h.parallelism hused)
    have hmemory := Bool.toNat_le spec.mode.usesMemory
    have hle := toInt_le_of_ceiling (h.parallelismCeiling hused) hceiling
    rw [workerCount_of_usesCpu hused]
    omega
  memoryCeiling hused hceiling := by
    have hquantity := toNatClampNeg_of_pos (h.allocMb hused)
    have hle := toInt_le_of_ceiling (h.allocCeiling hused) hceiling
    have hchunk : Memory.chunkSize = 1048576 := rfl
    rw [hchunk]
    omega

/-! ## The memory of a run -/

/-- The chunks that a worker holds. -/
def WorkerStage.held : WorkerStage → Nat
  | committing taken _ => taken
  | holding chunks => chunks
  | _ => 0

/-- The chunks that a worker holds or is still to take. -/
def WorkerStage.wanted : WorkerStage → Nat
  | committing taken left => taken + left
  | holding chunks => chunks
  | _ => 0

theorem WorkerStage.held_le_wanted (stage : WorkerStage) : stage.held ≤ stage.wanted := by
  cases stage with
  | committing taken left => exact Nat.le_add_right taken left
  | _ => exact Nat.le_refl _

theorem WorkerStage.wanted_start_le (spec : Spec) (kind : Worker) : (start spec kind).wanted ≤ spec.allocMb.toNatClampNeg := by
  cases kind with
  | memory => exact (Nat.zero_add _).le
  | _ => exact Nat.zero_le _

theorem WorkerStage.wanted_of_kind {stage : WorkerStage} (h : stage.kind? ≠ some .memory) : stage.wanted = 0 := by
  cases stage with
  | committing | holding => exact absurd rfl h
  | _ => rfl

/-- No move makes a worker want more. -/
theorem WorkerStage.wanted_next_le (size : Nat) (cancelled : Bool) (directory : Directory) (stage : WorkerStage) (move : Move) :
    (stage.next size cancelled directory move).1.wanted ≤ stage.wanted := by
  by_cases hkind : stage.kind? = some .memory
  · cases stage with
    | committing taken left =>
      cases move with
      | step =>
        rw [next]
        dsimp only
        split_ifs with hstops
        · exact Nat.le_add_right taken left
        · obtain ⟨hleft, -⟩ := not_or.mp hstops
          simp only [wanted]
          omega
      | _ => exact Nat.le_refl _
    | holding chunks =>
      cases move with
      | step =>
        rw [next]
        dsimp only
        split_ifs
        · exact Nat.zero_le _
        · exact Nat.le_refl _
      | _ => exact Nat.le_refl _
    | _ => cases hkind
  · have hnone : (stage.next size cancelled directory move).1.kind? ≠ some .memory := by
      rcases kind?_next size cancelled directory stage move with hsame | hnone
      · rwa [hsame]
      · rw [hnone]
        exact fun h => by cases h
    rw [wanted_of_kind hnone]
    exact Nat.zero_le _

/-- The run is one of this spec, and no worker of it wants more than the spec says. -/
structure Run.IsModest (spec : Spec) (run : Run) : Prop where
  spec_eq : run.spec = spec
  wanted : ∀ worker ∈ run.workers, worker.stage.wanted ≤ spec.allocMb.toNatClampNeg

section

variable {spec : Spec} {run : Run}

theorem Run.isModest_start (limits : Limits) (spec : Spec) (own : Option Draws) (parentCancelled : Bool) (directory : Directory) :
    (start limits spec own parentCancelled directory).IsModest spec := by
  unfold start
  cases spec.validate limits <;> exact ⟨rfl, List.forall_mem_nil _⟩

theorem Run.IsModest.moveWorker (h : run.IsModest spec) (place : Nat) (move : Move) : (run.moveWorker place move).IsModest spec := by
  unfold Run.moveWorker
  cases hplace : run.workers[place]? with
  | none => exact h
  | some worker =>
    refine ⟨h.spec_eq, fun other hother => ?_⟩
    rcases List.mem_or_eq_of_mem_set hother with hold | rfl
    · exact h.wanted other hold
    · exact (WorkerStage.wanted_next_le _ _ _ _ _).trans (h.wanted worker (List.mem_of_getElem? hplace))

theorem Run.IsModest.joinWorker (h : run.IsModest spec) (place : Nat) : (run.joinWorker place).IsModest spec := by
  unfold Run.joinWorker
  cases hplace : run.workers[place]? with
  | none => exact h
  | some worker =>
    refine ⟨h.spec_eq, fun other hother => ?_⟩
    rcases List.mem_or_eq_of_mem_set hother with hold | rfl
    · exact h.wanted other hold
    · exact h.wanted worker (List.mem_of_getElem? hplace)

theorem Run.IsModest.apply (h : run.IsModest spec) (draws : Draws) (event : RunEvent) : (run.apply draws event).1.IsModest spec := by
  have happlied := applied run draws event
  generalize run.apply draws event = after at happlied ⊢
  cases happlied with
  | decides =>
    obtain ⟨own, rest, heq | heq⟩ := decideFault_eq run draws
    · rw [heq]
      exact ⟨h.spec_eq, h.wanted⟩
    · rw [heq]
      exact ⟨h.spec_eq, h.wanted⟩
  | launches worker pending hstage =>
    refine ⟨h.spec_eq, fun other hother => ?_⟩
    rcases List.mem_append.mp hother with hold | hnew
    · exact h.wanted other hold
    · rw [List.mem_singleton.mp hnew, ← h.spec_eq]
      exact WorkerStage.wanted_start_le run.spec worker
  | moves place move => exact h.moveWorker place move
  | joins place => exact h.joinWorker place
  | parentCancels | deadline | concludes | drops | stays => exact ⟨h.spec_eq, h.wanted⟩

theorem Run.IsModest.applyAll (h : run.IsModest spec) (draws : Draws) (events : List RunEvent) :
    (run.applyAll draws events).1.IsModest spec := by
  induction events generalizing run draws with
  | nil => exact h
  | cons event events ih => exact ih (h.apply draws event) _

/-- The bytes of memory that the workers of a run hold. -/
def Run.heldMemory (run : Run) : Nat := (run.workers.map (·.stage.held)).sum * Memory.chunkSize

theorem sum_held_le {workers : List WorkerThread} {chunks : Nat}
    (h : ∀ worker ∈ workers, worker.stage.held ≤ if worker.kind = .memory then chunks else 0) :
    (workers.map (·.stage.held)).sum ≤ (workers.map (·.kind)).count .memory * chunks := by
  induction workers with
  | nil => exact Nat.zero_le _
  | cons worker workers ih =>
    obtain ⟨hworker, hworkers⟩ := List.forall_mem_cons.mp h
    have hrest := ih hworkers
    rw [List.map_cons, List.sum_cons, List.map_cons, List.count_cons]
    by_cases hkind : worker.kind = .memory
    · rw [if_pos hkind] at hworker
      rw [hkind, beq_self_eq_true, if_pos rfl, Nat.add_mul]
      omega
    · rw [if_neg hkind] at hworker
      rw [beq_false_of_ne hkind, if_neg Bool.false_ne_true, Nat.add_zero]
      omega

/-- One worker of a run holds memory, where the mode of the run uses any. -/
theorem Run.heldMemory_le {limits : Limits} {own : Option Draws} {shared draws : Draws} {before : Directory}
    (hproper : Proper limits spec own shared before run draws) (h : run.IsModest spec) :
    run.heldMemory ≤ spec.mode.usesMemory.toNat * spec.allocMb.toNatClampNeg * Memory.chunkSize := by
  refine Nat.mul_le_mul_right _ ((sum_held_le fun worker hworker => ?_).trans (Nat.mul_le_mul_right spec.allocMb.toNatClampNeg ?_))
  · have hheld := worker.stage.held_le_wanted
    split_ifs with hkind
    · exact hheld.trans (h.wanted worker hworker)
    · rw [WorkerStage.wanted_of_kind fun hmemory => hkind (hproper.kinds worker hworker _ hmemory).symm] at hheld
      exact hheld
  · rw [← Spec.count_memory_workers]
    exact hproper.progress.started_in_order.sublist.count_le _

end

end Load

/-! ## Configs -/

namespace Service

/-- Every number of milliseconds but the lowest is a span. -/
theorem spanOf_eq_ok_iff {field : String} {ms : Int64} {span : Span} :
    spanOf field ms = .ok span ↔ ms ≠ Int64.minValue ∧ span = ⟨ms.toInt * 1000000⟩ := by
  have hlower := Int64.le_toInt ms
  have hupper := Int64.toInt_lt ms
  have hlowest : ms = Int64.minValue ↔ ms.toInt = -9223372036854775808 := Int64.toInt_inj.symm
  rw [spanOf, Span.ofMillis?, ne_eq, hlowest]
  split_ifs with hrange
  · exact ⟨fun h => ⟨by omega, (Except.ok.inj h).symm⟩, fun h => h.2 ▸ rfl⟩
  · refine iff_of_false (fun h => by cases h) fun h => ?_
    have hlow := h.1
    omega

theorem exists_toSpec_eq_ok_iff {config : Message.WorkConfig} :
    (∃ asked, toSpec (some config) = .ok asked) ↔
      (∃ mode, modeOf config = .ok mode) ∧ config.durationMs ≠ Int64.minValue ∧ config.latencyMs ≠ Int64.minValue := by
  constructor
  · rintro ⟨asked, hasked⟩
    obtain ⟨mode, duration, latency, hmode, hduration, hlatency, -⟩ := toSpec_eq_ok_iff.mp hasked
    exact ⟨⟨mode, hmode⟩, (spanOf_eq_ok_iff.mp hduration).1, (spanOf_eq_ok_iff.mp hlatency).1⟩
  · rintro ⟨⟨mode, hmode⟩, hduration, hlatency⟩
    exact ⟨_, toSpec_eq_ok_iff.mpr ⟨mode, _, _, hmode, spanOf_eq_ok_iff.mpr ⟨hduration, rfl⟩, spanOf_eq_ok_iff.mpr ⟨hlatency, rfl⟩, rfl⟩⟩

end Service

/-! ## Accepted specs -/

open Load Service

/-- What is checked as a positive duration always has a length. A spec that validation accepts is run as it stands, with its own deadline, with the workers that it asks for and no more than the ceiling on them and one, and whatever happens to its run the memory that the run holds stays under the ceiling on memory. Where a spec comes from a config, its spans are those of the config, and only the lowest number of milliseconds has none. -/
theorem accepted_specs_convert (spec : Spec) (limits : Limits) :
    ¬ (0 < spec.duration.nanoseconds ∧ spec.duration.length? = none) ∧
      (spec.validate limits = .ok () →
        spec.Converts limits ∧
          ∀ own shared parentCancelled directory events, 0 < limits.maxAllocMb →
            ((((Run.start limits spec own parentCancelled directory).applyAll shared events).1.heldMemory : Nat) : Int) ≤
              limits.maxAllocMb.toInt * 1048576) ∧
      ∀ config : Message.WorkConfig,
        ((∃ asked, toSpec (some config) = .ok asked) ↔
          (∃ mode, modeOf config = .ok mode) ∧ config.durationMs ≠ Int64.minValue ∧ config.latencyMs ≠ Int64.minValue) ∧
        ∀ asked, toSpec (some config) = .ok asked →
          asked.duration.nanoseconds = config.durationMs.toInt * 1000000 ∧ asked.latency.nanoseconds = config.latencyMs.toInt * 1000000 := by
  refine ⟨?_, fun haccepted => ?_, fun config => ?_⟩
  · rintro ⟨hpositive, hnone⟩
    rw [(Span.lasts_of_nonneg hpositive.le).length?] at hnone
    cases hnone
  · have hacceptable := Spec.validate_eq_ok_iff.mp haccepted
    have hconverts := hacceptable.converts
    refine ⟨hconverts, fun own shared parentCancelled directory events hceiling => ?_⟩
    have hproper := (Run.proper_start limits spec own shared parentCancelled directory).applyAll events
    have hmodest := (Run.isModest_start limits spec own parentCancelled directory).applyAll shared events
    have hheld := Run.heldMemory_le hproper hmodest
    generalize ((Run.start limits spec own parentCancelled directory).applyAll shared events).1.heldMemory = held at hheld
    have hpositive := Int32.lt_iff_toInt_lt.mp hceiling
    rw [Int32.toInt_zero] at hpositive
    cases hused : spec.mode.usesMemory with
    | false =>
      rw [hused, Bool.toNat_false] at hheld
      omega
    | true =>
      have hmemory := hconverts.memoryCeiling hused hceiling
      rw [hused, Bool.toNat_true, Nat.one_mul] at hheld
      omega
  · refine ⟨exists_toSpec_eq_ok_iff, fun asked hasked => ?_⟩
    obtain ⟨mode, duration, latency, -, hduration, hlatency, rfl⟩ := toSpec_eq_ok_iff.mp hasked
    exact ⟨congrArg Span.nanoseconds (spanOf_eq_ok_iff.mp hduration).2, congrArg Span.nanoseconds (spanOf_eq_ok_iff.mp hlatency).2⟩

/-- A config of 1500 milliseconds on three processors and two megabytes runs for its time, with four workers. -/
theorem accepted_specs_convert_both :
    let config : Message.WorkConfig := { mode := 3, durationMs := 1500, allocMb := 2, parallelism := 3 }
    let limits : Limits := ⟨2000000000, 2, 3⟩
    ∃ spec, toSpec (some config) = .ok spec ∧ spec.validate limits = .ok () ∧ spec.duration.nanoseconds = 1500 * 1000000 ∧
      spec.Converts limits ∧ spec.workerCount = 4 := by
  intro config limits
  let spec : Spec := ⟨.cpuMem, ⟨config.durationMs.toInt * 1000000⟩, 2, 3, 0, ⟨config.latencyMs.toInt * 1000000⟩, Binary64.zero⟩
  have hspec : toSpec (some config) = .ok spec :=
    toSpec_eq_ok_iff.mpr ⟨_, _, _, rfl, spanOf_eq_ok_iff.mpr ⟨by decide, rfl⟩, spanOf_eq_ok_iff.mpr ⟨by decide, rfl⟩, rfl⟩
  have haccepted : spec.validate limits = .ok () := by decide
  obtain ⟨-, hconverts, htimes⟩ := accepted_specs_convert spec limits
  exact ⟨spec, hspec, haccepted, ((htimes config).2 spec hspec).1, (hconverts haccepted).1, rfl⟩

end LoadGenerator
