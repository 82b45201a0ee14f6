import LoadGenerator.Service.Status

/-!
# Metrics and the call log

Every open call is in a gauge by mode and endpoint. A call that finishes is counted under its code, its latency is observed, and it leaves one event in the log; a call that is dropped only leaves the gauge. Every run of load is counted under its outcome. The clock is not part of this: of a latency only the fact that it was observed is kept.
-/

namespace LoadGenerator.Service

/-- Counts by key, in the order of the first count of each key. -/
abbrev Tally (κ : Type) := List (κ × Int)

namespace Tally

variable {κ : Type} [DecidableEq κ]

def add (key : κ) (amount : Int) : Tally κ → Tally κ
  | [] => [(key, amount)]
  | (other, count) :: rest => if other = key then (other, count + amount) :: rest else (other, count) :: add key amount rest

/-- The count of a key, zero where it has none. -/
def count (tally : Tally κ) (key : κ) : Int := (tally.lookup key).getD 0

end Tally

structure CallLabels where
  mode : String
  endpoint : String
  deriving DecidableEq

structure FinishLabels where
  call : CallLabels
  code : Code
  deriving DecidableEq

structure RunLabels where
  mode : String
  outcome : String
  deriving DecidableEq

structure Metrics where
  inFlight : Tally CallLabels := []
  requests : Tally FinishLabels := []
  latencies : Tally FinishLabels := []
  runs : Tally RunLabels := []

/-- One finished call in the log. -/
structure CallEvent where
  labels : CallLabels
  requestId : String
  traceId : String
  bytesIn : Nat
  bytesOut : Nat
  failure : Option Status
  deriving DecidableEq

def CallEvent.code (event : CallEvent) : Code :=
  match event.failure with
  | none => .ok
  | some status => status.code

namespace Metrics

def begin (metrics : Metrics) (labels : CallLabels) : Metrics :=
  { metrics with inFlight := Tally.add labels 1 metrics.inFlight }

/-- A call is dropped, or has finished. -/
def release (metrics : Metrics) (labels : CallLabels) : Metrics :=
  { metrics with inFlight := Tally.add labels (-1) metrics.inFlight }

/-- A call finishes and is released. -/
def finish (metrics : Metrics) (labels : CallLabels) (code : Code) : Metrics :=
  { metrics with
    requests := Tally.add ⟨labels, code⟩ 1 metrics.requests
    latencies := Tally.add ⟨labels, code⟩ 1 metrics.latencies }.release labels

def recordRun (metrics : Metrics) (mode outcome : String) : Metrics :=
  { metrics with runs := Tally.add ⟨mode, outcome⟩ 1 metrics.runs }

end Metrics

end LoadGenerator.Service
