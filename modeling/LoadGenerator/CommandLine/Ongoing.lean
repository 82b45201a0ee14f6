import LoadGenerator.CommandLine.Execution

/-!
# The program while it runs

Arguments are checked before anything else. The program then connects and makes its call step by step, until the call returns, the connection fails or the deadline passes, whichever comes first. The daemon's side does what it does at any moment. The program prints in the step in which its call returns: the deadline may pass between two steps, but not within one.
-/

namespace LoadGenerator.CommandLine

open Client Message

inductive Phase where
  | connecting
  | calling
  | exited (status : Nat)
  deriving DecidableEq

structure Program where
  phase : Phase
  /-- Whether there has been a connection. -/
  connected : Bool := false
  client : Client := {}
  output : List String := []
  /-- Lines on standard error besides the log. -/
  complaints : List String := []
  log : List LogEvent := []

/-- What can happen to a program. -/
inductive ProgramEvent where
  | refused (reason : String)
  /-- There is a connection, and the request of the call is to write its metadata in this order. -/
  | connected (order : MapOrder)
  | deliver (bytes : List UInt8)
  /-- The daemon ends its side. -/
  | endInput
  /-- The transport takes so many more bytes and no others. -/
  | resist (room : Nat)
  /-- The connection breaks under the call. -/
  | broken (reason : String)
  /-- The call goes on, if it need not wait. -/
  | step
  | deadline

namespace Program

/-- The bytes that the program has sent. -/
def sent (program : Program) : List UInt8 := program.client.wire.outbox

def start (arguments : Arguments) (ids : RunIds) : Program :=
  match arguments.validate with
  | .error e => { phase := .exited 2, complaints := (refuse e).complaints }
  | .ok () => { phase := .connecting, log := [startEvent arguments ids] }

section

variable (arguments : Arguments) (ids : RunIds) (late : Bool)

def succeed (program : Program) (reply : Reply) : Program :=
  { program with
    phase := .exited 0
    output := program.output ++ valueLines arguments reply.value
    log := program.log ++ streamEvents arguments reply ++ [endEvent arguments ids (.ok reply) late] }

def fail (program : Program) (failure : CallFailure) : Program :=
  { program with
    phase := .exited 1
    complaints := program.complaints ++ [s!"Call failed: {failure.fullMessage}"]
    log := program.log ++ [endEvent arguments ids (.error failure) late] }

/-- The program has its connection and begins its call. -/
def connect (program : Program) (order : MapOrder) : Program :=
  match arguments.invocation ids with
  | .error e => { program with connected := true }.fail arguments ids late (.tooLong e)
  | .ok invocation =>
    { program with phase := .calling, connected := true, client := program.client.begin invocation (Arguments.correlation ids) order }

/-- A step of the call, and the end of the program where the call returns. -/
def step (program : Program) : Program :=
  let program := { program with client := program.client.step }
  match program.client.result? with
  | none => program
  | some (.ok reply) => program.succeed arguments ids late reply
  | some (.error failure) => program.fail arguments ids late (.failed failure)

/-- The daemon's side changes the wire of the call. -/
def onWire (program : Program) (change : Wire → Wire) : Program :=
  { program with client := { program.client with wire := change program.client.wire } }

def apply (program : Program) (event : ProgramEvent) : Program :=
  match program.phase, event with
  | .connecting, .refused reason => program.fail arguments ids late (.unconnected arguments.address reason)
  | .connecting, .connected order => program.connect arguments ids late order
  | .connecting, .deadline | .calling, .deadline => program.fail arguments ids late (.deadline arguments.timeout)
  | .calling, .step => program.step arguments ids late
  | .calling, .deliver bytes => program.onWire fun wire => wire.deliver bytes
  | .calling, .endInput => program.onWire Wire.endInput
  | .calling, .resist room => program.onWire fun wire => { wire with room := some room }
  | .calling, .broken reason => program.fail arguments ids late (.failed (.transport reason))
  | _, _ => program

end

/-- The run as a whole, once it is over. -/
def execution? (program : Program) : Option Execution :=
  match program.phase with
  | .exited exitStatus =>
    some { exitStatus, output := program.output, complaints := program.complaints, log := program.log, sent := program.sent }
  | _ => none

end Program

/-- What happens to a program when all that the daemon sends comes at once. -/
def DaemonSide.events : DaemonSide → List ProgramEvent
  | .unreachable reason => [.refused reason]
  | .connected sent ended patience order =>
    .connected order :: .deliver sent :: (if ended then [.endInput] else []) ++ List.replicate patience .step ++ [.deadline]

end LoadGenerator.CommandLine
