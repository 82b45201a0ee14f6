import LoadGenerator.CommandLine.Execution
import LoadGenerator.Network.Address
import LoadGenerator.Text.Uuid
import Std.Async.DNS
import Std.Async.TCP
import Std.Async.Timer

/-!
# The program

Makes the call that the command line asks for over a socket. The log goes to standard error, one JSON line for each event.
-/

namespace LoadGenerator.Program

open CommandLine
open Std.Async (Async Selectable Selector)

abbrev Socket := Std.Async.TCP.Socket.Client

/-- The variables that can stand in for options. -/
def readEnvironmentVariables : IO Environment := do
  let mut present : List (String × String) := []
  for flag in flags do
    if let some key := flag.environmentKey then
      if let some value ← IO.getEnv key then present := (key, value) :: present
  let found := present
  return fun key => found.lookup key

def randomBytes : IO (List UInt8) := return (← IO.getRandomBytes 16).toList

/-- Ids for a run whose stream has so many requests. -/
def drawIds (count : Nat) : IO RunIds := do
  let mut items : Array String := #[]
  for _ in List.range count do
    items := items.push (Text.uuid (← randomBytes))
  let drawn := items
  return {
    requestId := Text.uuid (← randomBytes)
    traceId := Text.plainUuid (← randomBytes)
    items := fun place => drawn[place]?.getD "" }

/-- A socket to the first host behind the address that can be reached. -/
def openSocket (address : Network.Address) : Async Socket := do
  let hosts ← Std.Async.DNS.getAddrInfo address.host (toString address.portNumber)
  let mut failure : IO.Error := IO.userError "no host of this name"
  for host in hosts do
    let target : Std.Net.SocketAddress := match host with
      | .v4 addr => .v4 ⟨addr, address.portNumber⟩
      | .v6 addr => .v6 ⟨addr, address.portNumber⟩
    try
      let socket ← Std.Async.TCP.Socket.Client.mk
      socket.connect target
      return socket
    catch e => failure := e
  throw failure

/-- Bytes from a socket, the end of its input, or nothing before the time is over. -/
def receiveWithin (socket : Socket) (milliseconds : Nat) : Async (Option (Option (List UInt8))) := do
  let timer ← Selector.sleep (Std.Time.Millisecond.Offset.ofNat milliseconds)
  Selectable.one #[
    .case (socket.recvSelector 65536) fun bytes => return some (bytes.map (·.toList)),
    .case timer fun _ => return none]

/-- Exchanges bytes with the daemon until the call returns or the deadline is there, on the clock in nanoseconds. -/
partial def converse (socket : Socket) (deadline : Nat) (client : Client) : Async Client := do
  let client := client.settle 1000000
  let written := client.wire.outbox
  unless written.isEmpty do
    socket.send (ByteArray.mk written.toArray)
  let client := { client with wire := { client.wire with outbox := [] } }
  let now ← IO.monoNanosNow
  if client.result?.isSome || decide (deadline ≤ now) then return client
  match ← receiveWithin socket ((deadline - now) / 1000000 + 1) with
  | none => return client
  | some none => converse socket deadline { client with wire := client.wire.endInput }
  | some (some bytes) => converse socket deadline { client with wire := client.wire.deliver bytes }

def makeCall (arguments : Arguments) (ids : RunIds) (deadline : Nat) : IO (Except CallFailure Client.Reply) := do
  let unconnected (reason : String) : Except CallFailure Client.Reply :=
    .error (.unconnected arguments.address reason)
  match Network.Address.parse arguments.address with
  | .error e => return unconnected e.message
  | .ok address =>
    match ← (openSocket address).block.toBaseIO with
    | .error e => return unconnected (toString e)
    | .ok socket =>
      match arguments.invocation ids with
      | .error e => return .error (.tooLong e)
      | .ok invocation =>
        let client := ({} : Client).begin invocation (Arguments.correlation ids)
        match ← (converse socket deadline client).block.toBaseIO with
        | .error e => return .error (.failed (.transport (toString e)))
        | .ok client => return resultOf arguments client.result?

/-- One line of the log, given the milliseconds that the call took. -/
def logLine (elapsed : Nat) (event : LogEvent) : String :=
  let timing := if event.timed then [countField latencyKey elapsed] else []
  (Json.object [
    ("level", .string event.level.name),
    ("fields", .object (("message", .string event.message) :: event.fields ++ timing)),
    ("target", .string logTarget)]).text

/-- Shows what a run that took so many milliseconds leaves behind, and gives its status. -/
def present (execution : Execution) (elapsed : Nat) : IO UInt32 := do
  for event in execution.log do
    IO.eprintln (logLine elapsed event)
  for entry in execution.output do
    IO.println entry
  for complaint in execution.complaints do
    IO.eprintln complaint
  return UInt32.ofNat execution.exitStatus

def run (arguments : Arguments) : IO UInt32 := do
  let filterText := (← IO.getEnv logKey).getD ""
  for complaint in Log.Filter.complaints filterText do
    IO.eprintln complaint
  match arguments.validate with
  | .error e => present (refuse e) 0
  | .ok () =>
    let streams := arguments.mode == .client || arguments.mode == .bidi
    let ids ← drawIds (if streams then arguments.times.toNatClampNeg else 0)
    let start ← IO.monoNanosNow
    let deadline := start + arguments.timeout
    let result ← makeCall arguments ids deadline
    let stop ← IO.monoNanosNow
    let execution := conclude arguments ids result (decide (deadline ≤ stop)) []
    present (execution.filtered (Log.Filter.ofText filterText)) ((stop - start) / 1000000)

end LoadGenerator.Program

open LoadGenerator in
def main (arguments : List String) : IO UInt32 := do
  match CommandLine.parse arguments (← Program.readEnvironmentVariables) with
  | .error notice => Program.present notice.execution 0
  | .ok parsed => Program.run parsed
