import LoadGenerator.Binary64.Text
import LoadGenerator.Load.Mode
import LoadGenerator.Time.Span

/-!
# What a run should do

A spec names the mode and the quantities of one run; a quantity that the mode does not use has no effect. Limits are the ceilings that a spec is checked against.
-/

namespace LoadGenerator.Load

structure Spec where
  mode : Mode
  /-- From the start of the run to its deadline. -/
  duration : Span
  /-- Memory held, in units of `2 ^ 20` bytes. -/
  allocMb : Int32 := 0
  parallelism : Int32 := 0
  /-- Bytes written by each pass over the scratch file. -/
  ioBytes : Int32 := 0
  /-- A wait before any work. -/
  latency : Span := Span.zero
  /-- The probability of failing before any work. -/
  errorRate : Binary64 := Binary64.zero
  deriving DecidableEq

def Spec.workerCount (spec : Spec) : Nat :=
  (if spec.mode.usesCpu then spec.parallelism.toNatClampNeg else 0) + spec.mode.usesMemory.toNat + spec.mode.usesDisk.toNat

/-- Ceilings for specs; one that is not positive is no ceiling. -/
structure Limits where
  /-- In nanoseconds. -/
  maxDuration : Nat
  maxAllocMb : Int32
  maxParallelism : Int32
  deriving DecidableEq

def Limits.unbounded : Limits := ⟨0, 0, 0⟩

/-- One minute, half a gigabyte, and the given ceiling on workers. -/
def Limits.standard (maxParallelism : Int32) : Limits := ⟨60 * 1000000000, 512, maxParallelism⟩

/-- The source of draws in a description of a value. -/
def describeSource (present : Bool) : String := if present then "Some(\"custom\")" else "None"

/-- A description of the spec, with or without draws of its own. -/
def Spec.description (spec : Spec) (ownDraws : Bool) : String :=
  s!"WorkSpec \x7b mode: {spec.mode.description}, duration: {spec.duration.description}, " ++
  s!"alloc_mb: {spec.allocMb.toInt}, parallelism: {spec.parallelism.toInt}, io_bytes: {spec.ioBytes.toInt}, " ++
  s!"latency: {spec.latency.description}, error_rate: {spec.errorRate.description}, " ++
  s!"random: {describeSource ownDraws} \x7d"

def Limits.description (limits : Limits) : String :=
  s!"Limits \x7b max_duration: {lengthText limits.maxDuration}, max_alloc_mb: {limits.maxAllocMb.toInt}, " ++
  s!"max_parallelism: {limits.maxParallelism.toInt} \x7d"

end LoadGenerator.Load
