import LoadGenerator.Load.Spec
import LoadGenerator.Message.Work

/-!
# From a wire config to a spec

Only the envelope is checked: a config has to be present, its mode known, and its durations representable. The quantities pass as they are and are left to validation.
-/

namespace LoadGenerator.Service

open Message

inductive InvalidConfig where
  | missing
  | unsupportedMode (name : String)
  | outOfRange (field : String) (value : Int64)
  deriving DecidableEq

def InvalidConfig.message : InvalidConfig → String
  | missing => "invalid config: config is required"
  | unsupportedMode name => s!"invalid config: unsupported mode: {name}"
  | outOfRange field value => s!"invalid config: {field} out of range: {value.toInt}"

def loadMode? : WireMode → Option Load.Mode
  | .unspecified => none
  | .cpu => some .cpu
  | .mem => some .mem
  | .cpuMem => some .cpuMem
  | .io => some .io

/-- The mode of a config, or the name under which it is refused. -/
def modeOf (config : WorkConfig) : Except InvalidConfig Load.Mode :=
  match config.wireMode with
  | .error raw => .error (.unsupportedMode (toString raw.toInt))
  | .ok mode =>
    match loadMode? mode with
    | some mode => .ok mode
    | none => .error (.unsupportedMode mode.name)

def spanOf (field : String) (ms : Int64) : Except InvalidConfig Span :=
  match Span.ofMillis? ms.toInt with
  | some span => .ok span
  | none => .error (.outOfRange field ms)

def toSpec : Option WorkConfig → Except InvalidConfig Load.Spec
  | none => .error .missing
  | some config => do
    let mode ← modeOf config
    let duration ← spanOf "duration_ms" config.durationMs
    let latency ← spanOf "latency_ms" config.latencyMs
    return {
      mode, duration, latency
      allocMb := config.allocMb
      parallelism := config.parallelism
      ioBytes := config.ioBytes
      errorRate := config.errorRate }

/-- The name of a config's mode in metrics and logs. -/
def modeLabel : Option WorkConfig → String
  | none => WireMode.unspecified.name
  | some config =>
    match config.wireMode with
    | .ok mode => mode.name
    | .error raw => toString raw.toInt

end LoadGenerator.Service
