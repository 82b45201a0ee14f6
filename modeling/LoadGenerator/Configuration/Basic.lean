import LoadGenerator.Load.Spec
import LoadGenerator.Text.Quoted

/-!
# Configuration of the daemon

Where the daemon listens, how it writes its log, the ceilings of its runs, and what it says of itself.
-/

namespace LoadGenerator

inductive LogFormat where
  | pretty
  | json
  deriving DecidableEq

structure Configuration where
  rpcAddress : String
  metricsAddress : String
  logFormat : LogFormat
  /-- In milliseconds; zero is no ceiling. -/
  maxDurationMs : UInt64
  /-- Zero is no ceiling. -/
  maxAllocMb : Int32
  /-- Zero is no ceiling. -/
  maxParallelism : Int32
  /-- Where scratch files go, if not to the system's own directory. -/
  scratchDirectory : Option String
  serviceVersion : String
  deriving DecidableEq

namespace Configuration

/-- The configuration where nothing is said, with the given ceiling on workers. -/
def standard (maxParallelism : Int32) : Configuration where
  rpcAddress := "0.0.0.0:8080"
  metricsAddress := "0.0.0.0:9090"
  logFormat := .pretty
  maxDurationMs := 60000
  maxAllocMb := 512
  maxParallelism := maxParallelism
  scratchDirectory := none
  serviceVersion := "dev"

def limits (configuration : Configuration) : Load.Limits where
  maxDuration := configuration.maxDurationMs.toNat * 1000000
  maxAllocMb := configuration.maxAllocMb
  maxParallelism := configuration.maxParallelism

end Configuration

inductive ConfigurationError where
  | unreadable (path reason : String)
  | unparsable (path : String)
  | invalidValue (key value : String)
  deriving DecidableEq

/-- The message of an error. What is wrong inside a file is not said. -/
def ConfigurationError.message : ConfigurationError → String
  | unreadable path reason => s!"failed to read config file {path}: {reason}"
  | unparsable path => s!"failed to parse config file {path}: "
  | invalidValue key value => s!"invalid value for {key}: {Text.quoted value}"

end LoadGenerator
