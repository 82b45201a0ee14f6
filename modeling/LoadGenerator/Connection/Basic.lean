import LoadGenerator.Connection.Stream

/-!
# Connections

The daemon's side of one connection. Calls follow each other: between calls the connection reads lines, and each line that is not blank opens a call or is rejected with one response; while a call is open the lines are its stream, until its own response ends it. A connection is driven by events, and each step of its own does one thing that cannot be interrupted.
-/

namespace LoadGenerator

open Message Service

namespace Connection

structure OpenCall where
  labels : CallLabels
  requestId : String
  /-- Empty where the request has none. -/
  traceId : String
  stream : CallStream
  /-- The order in which the metadata of its response is written. -/
  order : MapOrder
  /-- Whether the connection still looks out for the peer hanging up. -/
  watching : Bool
  call : Call

inductive Phase where
  | idle
  | serving (call : OpenCall)
  /-- Over, with the reason if the connection failed. -/
  | closed (failure : Option String)

end Connection

structure Connection where
  wire : Wire := {}
  shutdown : Bool := false
  phase : Connection.Phase := .idle
  /-- The ids for requests that have none. -/
  ids : Nat → String
  idsUsed : Nat := 0
  /-- The order in which each response writes its metadata. -/
  orders : Nat → MapOrder := fun _ => .listed
  callsOpened : Nat := 0

inductive ConnectionEvent where
  | deliver (bytes : List UInt8)
  | hangUp
  | shutdown
  /-- The connection looks whether the peer has hung up on a call that reads nothing. -/
  | watch
  | step
  /-- The connection is given up, with the call that is open. -/
  | abort
  deriving DecidableEq

namespace Connection

/-- The methods whose calls read nothing after their request and end early when the peer hangs up. -/
def isWatched (method : String) : Bool := method == workMethod || method == repeatMethod

/-- The ids that the response carries. -/
def OpenCall.metadata (call : OpenCall) : Metadata :=
  let metadata := Metadata.insert [] Metadata.requestIdKey call.requestId
  if call.traceId.isEmpty then metadata else Metadata.insert metadata Metadata.traceIdKey call.traceId

def OpenCall.response (call : OpenCall) (outcome : Except Status Reply) : Response :=
  let id := call.stream.id
  { (match outcome with
      | .ok reply => Response.success id reply.toJson
      | .error status => Response.failure id status.toRpcError) with
    metadata := call.order.arrange call.metadata }

def unreadableResponse (e : JsonError) : Response := .plainFailure none parseErrorCode e.message

def versionResponse (request : Request) : Response :=
  .plainFailure request.id invalidRequestCode
    s!"unsupported jsonrpc version {Text.quoted request.version}, expected {protocolVersion}"

/-- The call that a request opens; the id is used where the request has none, and the line had this many bytes. -/
def OpenCall.ofRequest (settings : Settings) (request : Request) (generatedId : String) (order : MapOrder) (size : Nat) : OpenCall where
  labels := ⟨callMode request.method request.params, request.method⟩
  requestId := (Metadata.value? request.metadata Metadata.requestIdKey).getD generatedId
  traceId := (Metadata.value? request.metadata Metadata.traceIdKey).getD ""
  order := order
  stream := { id := request.id, bytesIn := size }
  watching := isWatched request.method
  call := openCall settings request.method request.params

def openCall (settings : Settings) (conn : Connection) (shared : Shared) (request : Request) (size : Nat) :
    Connection × Shared :=
  let call := OpenCall.ofRequest settings request (conn.ids conn.idsUsed) (conn.orders conn.callsOpened) size
  let generated := (Metadata.value? request.metadata Metadata.requestIdKey).isNone
  ({ conn with
      phase := .serving call
      idsUsed := if generated then conn.idsUsed + 1 else conn.idsUsed
      callsOpened := conn.callsOpened + 1 },
    { shared with metrics := shared.metrics.begin call.labels })

/-- Where a connection stands after a write between calls. -/
def afterWrite (written : Bool) : Phase := if written then .idle else .closed (some Wire.writeFailure)

def reject (conn : Connection) (response : Response) : Connection :=
  let (written, wire) := conn.wire.write (Utf8.encode response.line)
  { conn with wire, phase := afterWrite written }

def takeLine (settings : Settings) (conn : Connection) (shared : Shared) (text : List Char) : Connection × Shared :=
  if isBlankLine text then (conn, shared)
  else
    match Request.codec.parse (String.ofList text) with
    | .error e => (conn.reject (unreadableResponse e), shared)
    | .ok request =>
      if request.version ≠ protocolVersion then (conn.reject (versionResponse request), shared)
      else conn.openCall settings shared request (Utf8.size text)

def stepIdle (settings : Settings) (conn : Connection) (shared : Shared) : Connection × Shared :=
  if conn.shutdown then ({ conn with phase := .closed none }, shared)
  else
    match conn.wire.readLine with
    | (.waiting, _) => (conn, shared)
    | (.ended, _) => ({ conn with phase := .closed none }, shared)
    | (.malformed fault, wire) => ({ conn with wire, phase := .closed (some fault.message) }, shared)
    | (.line text, wire) => takeLine settings { conn with wire } shared text

/-- The log entry of a call that ends with the given bytes written. -/
def OpenCall.event (call : OpenCall) (outcome : Except Status Reply) : CallEvent where
  labels := call.labels
  requestId := call.requestId
  traceId := call.traceId
  bytesIn := call.stream.bytesIn
  bytesOut := call.stream.bytesOut
  failure := match outcome with
    | .ok _ => none
    | .error status => some status

/-- Ends a call with its response. The call is counted and logged even where the response cannot be written. -/
def closeCall (conn : Connection) (shared : Shared) (call : OpenCall) (outcome : Except Status Reply) :
    Connection × Shared :=
  let (written, wire, stream) := writeLine (call.response outcome).line (conn.wire, call.stream)
  let event := { call with stream }.event outcome
  ({ conn with wire, phase := afterWrite written },
    { shared with
      metrics := shared.metrics.finish call.labels event.code
      log := shared.log ++ [event] })

def stepCall (settings : Settings) (conn : Connection) (shared : Shared) (call : OpenCall) : Connection × Shared :=
  match call.call.outcome? with
  | some outcome => conn.closeCall shared call outcome
  | none =>
    let (_, next, shared, wire, stream) := call.call.step peer settings.limits shared (conn.wire, call.stream)
    ({ conn with wire, phase := .serving { call with call := next, stream } }, shared)

def step (settings : Settings) (conn : Connection) (shared : Shared) : Connection × Shared :=
  match conn.phase with
  | .idle => conn.stepIdle settings shared
  | .serving call => conn.stepCall settings shared call
  | .closed _ => (conn, shared)

def cancelCall (conn : Connection) : Connection :=
  match conn.phase with
  | .serving call => { conn with phase := .serving { call with stream := { call.stream with cancelled := true } } }
  | _ => conn

/-- Looks for the peer hanging up. Anything that the peer has sent ends the watch and stays unread. -/
def watch (conn : Connection) : Connection :=
  match conn.phase with
  | .serving call =>
    let unwatched : Connection := { conn with phase := .serving { call with watching := false } }
    if !call.watching then conn
    else if conn.wire.drained then unwatched.cancelCall
    else if conn.wire.inbox.isEmpty then conn
    else unwatched
  | _ => conn

/-- Gives the connection up. The open call only leaves the gauge. -/
def abort (conn : Connection) (shared : Shared) : Connection × Shared :=
  match conn.phase with
  | .idle => ({ conn with phase := .closed none }, shared)
  | .serving call =>
    ({ conn with phase := .closed none }, { shared with metrics := shared.metrics.release call.labels })
  | .closed _ => (conn, shared)

def apply (settings : Settings) (conn : Connection) (shared : Shared) : ConnectionEvent → Connection × Shared
  | .deliver bytes => ({ conn with wire := conn.wire.deliver bytes }, shared)
  | .hangUp => ({ conn with wire := conn.wire.endInput }, shared)
  | .shutdown => ({ conn with shutdown := true }.cancelCall, shared)
  | .watch => (conn.watch, shared)
  | .step => conn.step settings shared
  | .abort => conn.abort shared

def applyAll (settings : Settings) (conn : Connection) (shared : Shared) (events : List ConnectionEvent) :
    Connection × Shared :=
  events.foldl (fun (conn, shared) event => conn.apply settings shared event) (conn, shared)

def isClosed (conn : Connection) : Bool :=
  match conn.phase with
  | .closed _ => true
  | _ => false

/-- Nothing happens without the peer: the connection is closed, or it waits for a line. -/
def isWaiting (conn : Connection) : Bool :=
  let lineAwaited := conn.wire.readLine.1 == .waiting
  match conn.phase with
  | .closed _ => true
  | .idle => !conn.shutdown && lineAwaited
  | .serving call =>
    match call.call.stage, call.call.shape with
    | .head, .repeated _ _ => false
    | .head, _ => !call.stream.cancelled && !call.stream.ended && lineAwaited
    | _, _ => false

/-- Steps until the connection waits, at most `fuel` of them, looking out for the peer before each. -/
def settle (settings : Settings) : Nat → Connection → Shared → Connection × Shared
  | 0, conn, shared => (conn, shared)
  | fuel + 1, conn, shared =>
    if conn.isWaiting then (conn, shared)
    else
      let (conn, shared) := conn.watch.step settings shared
      settle settings fuel conn shared

end Connection

end LoadGenerator
