import LoadGenerator.Load.Spec

/-!
# Checking a spec

The checks run in a fixed order and the first violation is reported: duration and its ceiling, latency, error rate, the quantities that the mode uses, and last the ceilings on memory and workers.
-/

namespace LoadGenerator.Load

inductive Violation where
  | duration (actual : Span)
  | durationCeiling (actual maximum : Nat)
  | latency (actual : Span)
  | errorRate (actual : Binary64)
  | parallelism (mode : Mode) (actual : Int32)
  | allocMb (mode : Mode) (actual : Int32)
  | ioBytes (actual : Int32)
  | allocCeiling (actual maximum : Int32)
  | parallelismCeiling (actual maximum : Int32)
  deriving DecidableEq

def Violation.message : Violation → String
  | .duration actual => s!"load: duration must be > 0, got {actual.message}"
  | .durationCeiling actual maximum => s!"load: duration {lengthText actual} exceeds max {lengthText maximum}"
  | .latency actual => s!"load: latency must be >= 0, got {actual.message}"
  | .errorRate actual => s!"load: error_rate must be between 0 and 1, got {actual.message}"
  | .parallelism mode actual => s!"load: parallelism must be > 0 for {mode.name} mode, got {actual.toInt}"
  | .allocMb mode actual => s!"load: alloc_mb must be > 0 for {mode.name} mode, got {actual.toInt}"
  | .ioBytes actual => s!"load: io_bytes must be > 0 for io mode, got {actual.toInt}"
  | .allocCeiling actual maximum => s!"load: alloc_mb {actual.toInt} exceeds max {maximum.toInt}"
  | .parallelismCeiling actual maximum => s!"load: parallelism {actual.toInt} exceeds max {maximum.toInt}"

/-- Refuses with `violation` unless the condition holds. -/
def require (condition : Bool) (violation : Violation) : Except Violation Unit :=
  if condition then .ok () else .error violation

/-- A rate between zero and one, both included; a value that is not a number is no rate. -/
def isRate (rate : Binary64) : Bool := decide (Binary64.zero ≤ rate ∧ rate ≤ Binary64.one)

/-- Checks the spec against the limits and reports the first violation. -/
def Spec.validate (spec : Spec) (limits : Limits) : Except Violation Unit := do
  require (decide (0 < spec.duration.nanoseconds)) (.duration spec.duration)
  match spec.duration.length? with
  | none => .error (.duration spec.duration)
  | some length =>
    require (limits.maxDuration == 0 || decide (length ≤ limits.maxDuration)) (.durationCeiling length limits.maxDuration)
  require (decide (0 ≤ spec.latency.nanoseconds)) (.latency spec.latency)
  require (isRate spec.errorRate) (.errorRate spec.errorRate)
  require (!spec.mode.usesCpu || decide (0 < spec.parallelism)) (.parallelism spec.mode spec.parallelism)
  require (!spec.mode.usesMemory || decide (0 < spec.allocMb)) (.allocMb spec.mode spec.allocMb)
  require (!spec.mode.usesDisk || decide (0 < spec.ioBytes)) (.ioBytes spec.ioBytes)
  require (!spec.mode.usesMemory || decide (limits.maxAllocMb ≤ 0) || decide (spec.allocMb ≤ limits.maxAllocMb))
    (.allocCeiling spec.allocMb limits.maxAllocMb)
  require (!spec.mode.usesCpu || decide (limits.maxParallelism ≤ 0) || decide (spec.parallelism ≤ limits.maxParallelism))
    (.parallelismCeiling spec.parallelism limits.maxParallelism)

end LoadGenerator.Load
