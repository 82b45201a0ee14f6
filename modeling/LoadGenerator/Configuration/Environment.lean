import LoadGenerator.Configuration.File
import LoadGenerator.Text.Blank
import LoadGenerator.Text.Integer

/-!
# Configuration from the environment

One variable names a configuration file, and the others each override one setting of it. Only the configuration that results is checked, so that a variable can repair what a file got wrong.
-/

namespace LoadGenerator

/-- The variables of a process that are set. -/
abbrev Environment := String → Option String

/-- A format by its name or by the other name of `pretty`, in any mixture of ASCII cases. -/
def LogFormat.ofWord? (word : String) : Option LogFormat :=
  let word := word.toLower
  if word = "text" then some pretty else ofName? word

namespace Configuration

/-- The value that a variable gives, blanks around it left out, or the present value where the variable is not set. -/
def setting (env : Environment) (key : String) (take : String → Option α) (present : α) : Except ConfigurationError α :=
  match env key with
  | none => .ok present
  | some value =>
    match take (Text.trim value) with
    | some a => .ok a
    | none => .error (.invalidValue key value)

def override (env : Environment) (c : Configuration) : Except ConfigurationError Configuration := do
  let logFormat ← setting env "BURNER_LOG_FORMAT" LogFormat.ofWord? c.logFormat
  let maxDurationMs ← setting env "BURNER_MAX_DURATION_MS" Text.unsigned64? c.maxDurationMs
  let maxAllocMb ← setting env "BURNER_MAX_ALLOC_MB" Text.signed32? c.maxAllocMb
  let maxParallelism ← setting env "BURNER_MAX_PARALLELISM" Text.signed32? c.maxParallelism
  return {
    rpcAddress := (env "BURNER_RPC_ADDR").getD c.rpcAddress
    metricsAddress := (env "BURNER_METRICS_ADDR").getD c.metricsAddress
    logFormat, maxDurationMs, maxAllocMb, maxParallelism
    scratchDirectory := match env "BURNER_SCRATCH_DIR" with
      | none => c.scratchDirectory
      | some directory => if directory.isEmpty then none else some directory
    serviceVersion := (env "BURNER_SERVICE_VERSION").getD c.serviceVersion }

def check (c : Configuration) : Except ConfigurationError Unit :=
  if c.maxAllocMb < 0 then .error (.invalidValue "max_alloc_mb" (toString c.maxAllocMb.toInt))
  else if c.maxParallelism < 0 then .error (.invalidValue "max_parallelism" (toString c.maxParallelism.toInt))
  else .ok ()

/-- The file that the environment names, if it names one. -/
def namedFile (env : Environment) : Option String := (env "BURNER_CONFIG").filter fun path => !path.isEmpty

/-- The configuration of a process, given the ceiling on workers where none is set. -/
def load (maxParallelism : Int32) (files : Files) (env : Environment) : Except ConfigurationError Configuration := do
  let configuration ← match namedFile env with
    | some path => ofFile maxParallelism files path
    | none => .ok (standard maxParallelism)
  let configuration ← configuration.override env
  configuration.check
  return configuration

end Configuration

end LoadGenerator
