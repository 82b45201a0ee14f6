import LoadGenerator.Client.Basic
import LoadGenerator.CommandLine.Parse
import LoadGenerator.Log.Filter

/-!
# Running the command line

The program makes one call within its deadline. A call that succeeds prints its value to standard output, and one that fails prints nothing there; either way two log events frame it. Everything that the daemon's side can do is what it sends, whether it ends, and how long it takes.
-/

namespace LoadGenerator.CommandLine

open Client Message

structure RunIds where
  requestId : String
  traceId : String
  /-- The ids of the requests in a stream. -/
  items : Nat → String

inductive CallFailure where
  | unconnected (address reason : String)
  | tooLong (e : TooLong)
  | deadline (timeout : Nat)
  | failed (failure : Failure)

namespace CallFailure

/-- What went wrong, without its cause. -/
def message : CallFailure → String
  | unconnected address _ => s!"failed to connect to {address}"
  | tooLong e => e.message
  | deadline timeout => s!"deadline of {lengthText timeout} exceeded"
  | failed failure => failure.message

/-- What went wrong, with its cause. -/
def fullMessage : CallFailure → String
  | unconnected address reason => s!"failed to connect to {address}: {reason}"
  | tooLong e => s!"{e.message}: {TooLong.reason}"
  | other => other.message

/-- The name of the code of the failure; one that comes after the deadline counts as the deadline's. -/
def codeName (late : Bool) (failure : CallFailure) : String :=
  if late then "DEADLINE_EXCEEDED"
  else
    match failure with
    | deadline _ => "DEADLINE_EXCEEDED"
    | failed (.rpc error) => error.status?.getD "UNKNOWN"
    | unconnected _ _ | tooLong _ | failed _ => "UNAVAILABLE"

end CallFailure

namespace Arguments

def correlation (ids : RunIds) : Correlation := { requestId := some ids.requestId, traceId := some ids.traceId }

/-- The requests of a stream, each with an id of its own. -/
def streamRequests (ids : RunIds) (times : Int32) (config : WorkConfig) : List WorkRequest :=
  (List.range times.toNatClampNeg).map fun place => { requestId := ids.items place, config := some config }

def invocation (arguments : Arguments) (ids : RunIds) : Except TooLong Invocation :=
  match arguments.mode with
  | .health => .ok .health
  | .ping => .ok .ping
  | .unary => do return .work { requestId := ids.requestId, config := some (← arguments.workConfig) }
  | .server => do
    let config ← arguments.workConfig
    return .repeated { requestId := ids.requestId, config := some config, times := arguments.times }
  | .client => do return .tally (streamRequests ids arguments.times (← arguments.workConfig))
  | .bidi => do return .exchange (streamRequests ids arguments.times (← arguments.workConfig))

end Arguments

/-- The daemon's side of a call. -/
inductive DaemonSide where
  | unreachable (reason : String)
  /-- All that the daemon sends, whether it ends its side then, how many steps the call can take before the deadline, and the order in which its request is to write the metadata. -/
  | connected (sent : List UInt8) (ended : Bool) (patience : Nat) (order : MapOrder)

/-- The result of a call that may not have returned before the deadline. -/
def resultOf (arguments : Arguments) : Option (Except Failure Reply) → Except CallFailure Reply
  | none => .error (.deadline arguments.timeout)
  | some (.error failure) => .error (.failed failure)
  | some (.ok reply) => .ok reply

def steps : Nat → Client → Client
  | 0, client => client
  | n + 1, client => steps n client.step

/-- Makes the call. The bytes are what the program has sent. -/
def call (arguments : Arguments) (ids : RunIds) : DaemonSide → Except CallFailure Reply × List UInt8
  | .unreachable reason => (.error (.unconnected arguments.address reason), [])
  | .connected sent ended patience order =>
    match arguments.invocation ids with
    | .error e => (.error (.tooLong e), [])
    | .ok invocation =>
      let client : Client := { wire := { inbox := sent, inputEnded := ended } }
      let client := steps patience (client.begin invocation (Arguments.correlation ids) order)
      (resultOf arguments client.result?, client.wire.outbox)

structure LogEvent where
  level : Log.Level := .info
  message : String
  fields : List (String × Json)
  /-- Whether the event also tells how long the call took, which only a clock knows. -/
  timed : Bool := false

def latencyKey : String := "latency_ms"

/-- The names of the fields of an event, one of which is its message. -/
def LogEvent.fieldNames (event : LogEvent) : List String :=
  "message" :: event.fields.map (·.1) ++ (if event.timed then [latencyKey] else [])

/-- The fields that both framing events have. -/
def commonFields (arguments : Arguments) (ids : RunIds) : List (String × Json) := [
  ("trace_id", .string ids.traceId),
  ("mode", .string arguments.mode.name),
  ("addr", .string arguments.address),
  ("request_id", .string ids.requestId),
  ("work_mode", .string arguments.workModeLabel)]

def startEvent (arguments : Arguments) (ids : RunIds) : LogEvent where
  message := "client request start"
  fields := commonFields arguments ids

def countField (name : String) (n : Nat) : String × Json := (name, .number (.natural (UInt64.ofNat n)))

def endEvent (arguments : Arguments) (ids : RunIds) (result : Except CallFailure Reply) (late : Bool) : LogEvent :=
  let message := "client request end"
  match result with
  | .ok reply =>
    { message
      timed := true
      fields := commonFields arguments ids ++
        [("code", .string "OK"), countField "bytes_out" reply.bytesOut, countField "bytes_in" reply.bytesIn] }
  | .error failure =>
    { level := .error
      message
      timed := true
      fields := commonFields arguments ids ++
        [("code", .string (failure.codeName late)), ("error", .string failure.message)] }

/-- What a stream leaves in the log when it ends well. -/
def streamEvents (arguments : Arguments) (reply : Reply) : List LogEvent :=
  let sent := countField "sent" arguments.times.toNatClampNeg
  match arguments.mode, reply.value with
  | .client, .summary summary =>
    let field (name : String) (n : Int32) : String × Json := (name, .number (.ofInt32 n))
    [{ message := "client stream end"
       fields := [sent, field "summary_total" summary.total, field "summary_success" summary.success,
        field "summary_failed" summary.failed] }]
  | .bidi, .responses items => [{ message := "client bidi end", fields := [sent, countField "received" items.length] }]
  | _, _ => []

def outcomeText (item : WorkResponse) : String := s!"ok={item.ok} error={item.errorMessage}"

/-- The lines of items, numbered from one. -/
def itemLines (title : String) (times : Int32) (items : List WorkResponse) : List String :=
  items.zipIdx.map fun (item, place) => s!"{title} [{place + 1}/{times.toInt}]: {outcomeText item}"

def valueLines (arguments : Arguments) : Value → List String
  | .health health => [s!"health: {Health.codec.render health}"]
  | .pong reply => [s!"ping reply: {reply.message}"]
  | .work response => [s!"do-work unary: {outcomeText response}"]
  | .summary summary =>
    [s!"client stream summary: total={summary.total.toInt} success={summary.success.toInt} failed={summary.failed.toInt}"]
  | .responses items =>
    itemLines (if arguments.mode = .server then "server stream" else "bidi") arguments.times items
  | .raw _ => []

structure Execution where
  exitStatus : Nat
  output : List String := []
  /-- Lines on standard error besides the log. -/
  complaints : List String := []
  log : List LogEvent := []
  sent : List UInt8 := []

def logTarget : String := "burner"

/-- The variable that the filter of the log comes from. -/
def logKey : String := "RUST_LOG"

/-- A run with only those events that a filter shows. -/
def Execution.filtered (execution : Execution) (filter : Log.Filter) : Execution :=
  { execution with log := execution.log.filter fun event => filter.shows logTarget event.level event.fieldNames }

/-- The run of a call that has ended like this. -/
def conclude (arguments : Arguments) (ids : RunIds) (result : Except CallFailure Reply) (late : Bool)
    (sent : List UInt8) : Execution :=
  let start := startEvent arguments ids
  let finish := endEvent arguments ids result late
  match result with
  | .ok reply =>
    { exitStatus := 0
      output := valueLines arguments reply.value
      log := start :: streamEvents arguments reply ++ [finish]
      sent }
  | .error failure =>
    { exitStatus := 1
      complaints := [s!"Call failed: {failure.fullMessage}"]
      log := [start, finish]
      sent }

def refuse (e : InvalidArgument) : Execution :=
  { exitStatus := 2, complaints := [s!"Invalid arguments: {e.message}"] }

def execute (arguments : Arguments) (ids : RunIds) (side : DaemonSide) (late : Bool) : Execution :=
  match arguments.validate with
  | .error e => refuse e
  | .ok () =>
    let (result, sent) := call arguments ids side
    conclude arguments ids result late sent

/-- The version that the program gives itself. -/
def versionLine : String := "burner 0.1.0"

def helpLines : List String := "Usage: burner [OPTIONS]" :: "" :: "Options:" :: flags.map fun flag => s!"      --{flag.name}"

/-- The run of a command line that has no arguments to run with. -/
def Notice.execution : Notice → Execution
  | .help => { exitStatus := 0, output := helpLines }
  | .version => { exitStatus := 0, output := [versionLine] }
  | .usage => { exitStatus := 2, complaints := ["For more information, try '--help'."] }
  | .abort => { exitStatus := 101 }

end LoadGenerator.CommandLine
