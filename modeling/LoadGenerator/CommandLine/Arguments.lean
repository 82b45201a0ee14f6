import LoadGenerator.Load.Validation
import LoadGenerator.Message.Work

/-!
# Arguments

What the command line asks for: one call to one daemon, with the quantities of its runs.
-/

namespace LoadGenerator.CommandLine

open Message

inductive CallMode where
  | health
  | ping
  | unary
  | server
  | client
  | bidi
  deriving DecidableEq

namespace CallMode

def all : List CallMode := [health, ping, unary, server, client, bidi]

def name : CallMode → String
  | health => "health"
  | ping => "ping"
  | unary => "do-work-unary"
  | server => "do-work-server"
  | client => "do-work-client"
  | bidi => "do-work-bidi"

def ofName? (name : String) : Option CallMode := all.find? fun mode => mode.name == name

def runsLoad : CallMode → Bool
  | health | ping => false
  | unary | server | client | bidi => true

end CallMode

/-- The number on the wire of a load mode. -/
def wireMode : Load.Mode → WireMode
  | .cpu => .cpu
  | .mem => .mem
  | .cpuMem => .cpuMem
  | .io => .io

/-- The arguments of the program, each with its standard value. Durations are in nanoseconds. -/
structure Arguments where
  address : String := "localhost:8080"
  timeout : Nat := 3000000000
  mode : CallMode := .health
  workMode : Load.Mode := .cpu
  workDuration : Nat := 3000000000
  allocMb : Int32 := 32
  parallelism : Int32 := 1
  ioBytes : Int32 := 65536
  latency : Nat := 0
  errorRate : Binary64 := Binary64.zero
  /-- The number of runs of a streaming call. -/
  times : Int32 := 3
  deriving DecidableEq

inductive InvalidArgument where
  | timeout
  | workDuration
  | errorRate
  | times
  | negative
  deriving DecidableEq

def InvalidArgument.message : InvalidArgument → String
  | timeout => "timeout must be > 0"
  | workDuration => "work-duration must be > 0"
  | errorRate => "error-rate must be between 0 and 1"
  | times => "repeat must be > 0"
  | negative => "alloc-mb, parallelism and io-bytes must not be negative"

/-- A duration of more milliseconds than the wire can carry, by its argument. -/
structure TooLong where
  name : String
  deriving DecidableEq

def TooLong.message (e : TooLong) : String := s!"{e.name} is too large"

/-- What is wrong with the number of milliseconds. -/
def TooLong.reason : String := "number too large to fit in target type"

/-- Whole milliseconds, rounded down. -/
def milliseconds (name : String) (nanoseconds : Nat) : Except TooLong Int64 :=
  let ms := nanoseconds / 1000000
  if ms ≤ Int64.maxValue.toInt then .ok (Int64.ofNat ms) else .error ⟨name⟩

namespace Arguments

def validate (arguments : Arguments) : Except InvalidArgument Unit :=
  if arguments.timeout = 0 then .error .timeout
  else if arguments.workDuration = 0 then .error .workDuration
  else if !Load.isRate arguments.errorRate then .error .errorRate
  else if arguments.times ≤ 0 then .error .times
  else if arguments.allocMb < 0 ∨ arguments.parallelism < 0 ∨ arguments.ioBytes < 0 then .error .negative
  else .ok ()

/-- The quantities of a run as they travel. -/
def workConfig (arguments : Arguments) : Except TooLong WorkConfig := do
  let durationMs ← milliseconds "work-duration" arguments.workDuration
  let latencyMs ← milliseconds "latency" arguments.latency
  return {
    mode := (wireMode arguments.workMode).raw
    durationMs
    allocMb := arguments.allocMb
    parallelism := arguments.parallelism
    ioBytes := arguments.ioBytes
    latencyMs
    errorRate := arguments.errorRate }

/-- The name of the load mode in the log, empty for calls that run no load. -/
def workModeLabel (arguments : Arguments) : String :=
  if arguments.mode.runsLoad then (wireMode arguments.workMode).name else ""

end Arguments

end LoadGenerator.CommandLine
