import LoadGenerator.CommandLine.Arguments
import LoadGenerator.Proofs.Load.Checks
import LoadGenerator.Proofs.Service.Conversions

/-!
# Quantities between the command line and validation

The command line takes durations in nanoseconds and sends whole milliseconds, rounded down. What it accepts always reaches validation as the run that it asks for, and its latency and its error rate pass there. Its duration passes too, unless nothing is left of it: a positive duration below one millisecond is sent as zero.
-/

namespace LoadGenerator.CommandLine

open Load Message Service

/-! ## Milliseconds -/

theorem milliseconds_eq_ok_iff {name : String} {nanoseconds : Nat} {ms : Int64} :
    milliseconds name nanoseconds = .ok ms ↔ nanoseconds / 1000000 < 9223372036854775808 ∧ ms.toInt = (nanoseconds / 1000000 : Nat) := by
  have hlargest : Int64.maxValue.toInt = 9223372036854775807 := by decide
  rw [milliseconds, hlargest]
  split_ifs with hfits
  · have hbelow : nanoseconds / 1000000 < 9223372036854775808 := by omega
    have hvalue : (Int64.ofNat (nanoseconds / 1000000)).toInt = (nanoseconds / 1000000 : Nat) := Int64.toInt_ofNat_of_lt hbelow
    rw [and_iff_right hbelow, ← hvalue, Int64.toInt_inj, Except.ok.injEq, eq_comm]
  · refine iff_of_false ?_ ?_
    · intro h
      cases h
    · intro h
      omega

/-! ## Arguments -/

section

variable {arguments : Arguments} {config : WorkConfig} {spec : Spec}

theorem Arguments.validate_eq_ok_iff :
    arguments.validate = .ok () ↔ arguments.timeout ≠ 0 ∧ arguments.workDuration ≠ 0 ∧ isRate arguments.errorRate = true ∧
      ¬ arguments.times ≤ 0 ∧ ¬ (arguments.allocMb < 0 ∨ arguments.parallelism < 0 ∨ arguments.ioBytes < 0) := by
  unfold validate
  split_ifs with htimeout hduration hrate htimes hnegative <;> simp_all

theorem Arguments.workConfig_eq_ok_iff :
    arguments.workConfig = .ok config ↔ ∃ durationMs latencyMs, milliseconds "work-duration" arguments.workDuration = .ok durationMs ∧
      milliseconds "latency" arguments.latency = .ok latencyMs ∧
      config = ⟨(wireMode arguments.workMode).raw, durationMs, arguments.allocMb, arguments.parallelism, arguments.ioBytes, latencyMs,
        arguments.errorRate⟩ := by
  simp only [workConfig]
  rcases milliseconds "work-duration" arguments.workDuration with e | durationMs
  · simp [bind, Except.bind]
  · rcases milliseconds "latency" arguments.latency with e | latencyMs <;> simp [bind, Except.bind, pure, Except.pure, eq_comm]

/-- A mode arrives as what it was sent as. -/
theorem modeOf_wireMode (mode : Mode) (h : config.mode = (wireMode mode).raw) : modeOf config = .ok mode := by
  rw [modeOf, WorkConfig.wireMode, h]
  cases mode <;> rfl

/-- The run that the arguments ask for, with its durations in whole milliseconds. -/
structure Arguments.Asks (arguments : Arguments) (spec : Spec) : Prop where
  mode : spec.mode = arguments.workMode
  duration : spec.duration.nanoseconds = (arguments.workDuration / 1000000 : Nat) * 1000000
  latency : spec.latency.nanoseconds = (arguments.latency / 1000000 : Nat) * 1000000
  allocMb : spec.allocMb = arguments.allocMb
  parallelism : spec.parallelism = arguments.parallelism
  ioBytes : spec.ioBytes = arguments.ioBytes
  errorRate : spec.errorRate = arguments.errorRate

/-- A number of milliseconds that was counted from nanoseconds is a span. -/
theorem spanOf_of_milliseconds {field name : String} {nanoseconds : Nat} {ms : Int64} (h : milliseconds name nanoseconds = .ok ms) :
    spanOf field ms = .ok ⟨(nanoseconds / 1000000 : Nat) * 1000000⟩ := by
  obtain ⟨-, hvalue⟩ := milliseconds_eq_ok_iff.mp h
  refine spanOf_eq_ok_iff.mpr ⟨?_, by rw [hvalue]⟩
  rintro rfl
  have hlowest : Int64.minValue.toInt = -9223372036854775808 := by decide
  omega

theorem Arguments.exists_toSpec (hconfig : arguments.workConfig = .ok config) : ∃ spec, toSpec (some config) = .ok spec ∧ arguments.Asks spec := by
  obtain ⟨durationMs, latencyMs, hduration, hlatency, rfl⟩ := workConfig_eq_ok_iff.mp hconfig
  refine ⟨_, toSpec_eq_ok_iff.mpr ⟨_, _, _, modeOf_wireMode arguments.workMode rfl, ?_, ?_, rfl⟩, ⟨rfl, rfl, rfl, rfl, rfl, rfl, rfl⟩⟩
  · exact spanOf_of_milliseconds hduration
  · exact spanOf_of_milliseconds hlatency

/-! ## What validation reports -/

variable {limits : Limits}

theorem Arguments.Asks.validate_ne_latency (h : arguments.Asks spec) (actual : Span) : spec.validate limits ≠ .error (.latency actual) := by
  intro hreported
  obtain ⟨check, hfirst, hviolation⟩ := Spec.validate_eq_error_iff.mp hreported
  have hfails := hfirst.fails
  cases check with
  | latency =>
    have hlatency := h.latency
    exact hfails (show 0 ≤ spec.latency.nanoseconds by omega)
  | _ => cases hviolation

theorem Arguments.Asks.validate_ne_errorRate (h : arguments.Asks spec) (hrate : isRate arguments.errorRate = true) (actual : Binary64) :
    spec.validate limits ≠ .error (.errorRate actual) := by
  intro hreported
  obtain ⟨check, hfirst, hviolation⟩ := Spec.validate_eq_error_iff.mp hreported
  have hfails := hfirst.fails
  cases check with
  | errorRate =>
    rw [← h.errorRate] at hrate
    exact hfails (of_decide_eq_true hrate)
  | _ => cases hviolation

/-- A duration is found wrong just where it is below one millisecond. -/
theorem Arguments.Asks.validate_eq_duration_iff (h : arguments.Asks spec) {actual : Span} :
    spec.validate limits = .error (.duration actual) ↔ arguments.workDuration < 1000000 ∧ actual = Span.zero := by
  have hduration := h.duration
  rw [Spec.validate_eq_error_iff]
  constructor
  · rintro ⟨check, hfirst, hviolation⟩
    have hfails := hfirst.fails
    cases check with
    | duration =>
      have hnothing : ¬ 0 < spec.duration.nanoseconds := hfails
      obtain rfl : actual = spec.duration := Violation.duration.inj hviolation
      have hzero : spec.duration.nanoseconds = 0 := by omega
      exact ⟨by omega, congrArg Span.mk hzero⟩
    | _ => cases hviolation
  · rintro ⟨hshort, rfl⟩
    have hzero : spec.duration.nanoseconds = 0 := by omega
    refine ⟨.duration, ⟨List.forall_mem_nil _, ?_⟩, congrArg (fun n => Violation.duration ⟨n⟩) hzero.symm⟩
    intro hholds
    have hpositive : 0 < spec.duration.nanoseconds := hholds
    omega

end

/-- What the command line accepts and can send arrives as the run that it asks for. Whatever the limits, validation finds nothing wrong with its latency or its error rate. It finds its duration wrong just where that is below one millisecond, and it is the same durations that are not sent as positive ones. -/
theorem accepted_arguments_translate {arguments : Arguments} {config : WorkConfig} (haccepted : arguments.validate = .ok ())
    (hconfig : arguments.workConfig = .ok config) :
    (0 < config.durationMs ↔ 1000000 ≤ arguments.workDuration) ∧
      ∃ spec, toSpec (some config) = .ok spec ∧ arguments.Asks spec ∧ ∀ limits actual,
        (spec.validate limits = .error (.duration actual) ↔ arguments.workDuration < 1000000 ∧ actual = Span.zero) ∧
        spec.validate limits ≠ .error (.latency actual) ∧ ∀ rate, spec.validate limits ≠ .error (.errorRate rate) := by
  obtain ⟨-, -, hrate, -⟩ := Arguments.validate_eq_ok_iff.mp haccepted
  obtain ⟨spec, hspec, hasks⟩ := Arguments.exists_toSpec hconfig
  refine ⟨?_, spec, hspec, hasks, ?_⟩
  · obtain ⟨durationMs, latencyMs, hduration, -, rfl⟩ := Arguments.workConfig_eq_ok_iff.mp hconfig
    obtain ⟨-, hvalue⟩ := milliseconds_eq_ok_iff.mp hduration
    rw [Int64.lt_iff_toInt_lt, Int64.toInt_zero, hvalue]
    omega
  · intro limits actual
    exact ⟨hasks.validate_eq_duration_iff, hasks.validate_ne_latency actual, hasks.validate_ne_errorRate hrate⟩

/-- Half a millisecond on a processor is accepted, sent as zero and refused. -/
theorem accepted_arguments_translate_half_millisecond :
    let arguments : Arguments := { mode := .unary, workDuration := 500000 }
    let config : WorkConfig := { mode := 1, durationMs := 0, allocMb := 32, parallelism := 1, ioBytes := 65536 }
    arguments.validate = .ok () ∧ arguments.workConfig = .ok config ∧ ¬ 0 < config.durationMs ∧
      ∃ spec, toSpec (some config) = .ok spec ∧ arguments.Asks spec ∧ spec.validate .unbounded = .error (.duration Span.zero) := by
  intro arguments config
  have haccepted : arguments.validate = .ok () := by decide
  have hconfig : arguments.workConfig = .ok config := by decide
  obtain ⟨hpositive, spec, hspec, hasks, hreports⟩ := accepted_arguments_translate haccepted hconfig
  refine ⟨haccepted, hconfig, by decide, spec, hspec, hasks, ?_⟩
  exact (hreports .unbounded Span.zero).1.mpr ⟨by decide, rfl⟩

end LoadGenerator.CommandLine
