import LoadGenerator.Client.Invocation
import LoadGenerator.Connection.Wire

/-!
# Clients

A client makes one call after another over one wire. A call writes its request, and then its stream if it has one; the calls with an answer to each request write the next one only after an item has come back. What the daemon sends is read line by line until the response of the call. Each step writes one line or reads one message.
-/

namespace LoadGenerator

open Message

namespace Client

inductive Stage where
  /-- Its request has to be written. -/
  | opening
  /-- The rest of its stream has to be written. -/
  | sending (left : List WorkRequest)
  /-- An item has to arrive before the rest of the stream. -/
  | awaiting (left : List WorkRequest)
  /-- Items are taken up to the response. -/
  | collecting
  /-- Items are dropped up to the response. -/
  | finishing
  | ended (result : Except Failure Reply)

structure OpenCall where
  id : RequestId
  invocation : Invocation
  correlation : Correlation
  /-- The order in which the metadata of its request is written. -/
  order : MapOrder := .listed
  stage : Stage := .opening
  items : List WorkResponse := []
  bytesOut : Nat := 0
  bytesIn : Nat := 0

inductive Incoming where
  | frame (frame : Frame)
  | response (response : Response)

def incomingOf (text : List Char) : Except JsonError Incoming := do
  let value ← Json.parse (String.ofList text)
  if Frame.isFrame value then .frame <$> Frame.codec.ofJson value else .response <$> Response.codec.ofJson value

namespace OpenCall

def request (call : OpenCall) : Request :=
  { Request.new call.id call.invocation.method call.invocation.params with metadata := call.order.arrange call.correlation.metadata }

def result? (call : OpenCall) : Option (Except Failure Reply) :=
  match call.stage with
  | .ended result => some result
  | _ => none

def failed (call : OpenCall) (failure : Failure) : OpenCall := { call with stage := .ended (.error failure) }

/-- Writes a line, and goes on to the given stage. -/
def write (call : OpenCall) (wire : Wire) (line : List Char) (next : Stage) : OpenCall × Wire :=
  match wire.write (Utf8.encode line) with
  | (true, wire) => ({ call with stage := next, bytesOut := call.bytesOut + Utf8.size line }, wire)
  | (false, wire) => (call.failed (.transport Wire.writeFailure), wire)

def afterRequest : Invocation → Stage
  | .repeated _ => .collecting
  | .tally requests | .exchange requests => .sending requests
  | _ => .finishing

def afterItem (invocation : Invocation) (left : List WorkRequest) : Stage :=
  match invocation with
  | .exchange _ => .awaiting left
  | _ => .sending left

def afterTaking : Stage → Stage
  | .awaiting left => .sending left
  | stage => stage

/-- Takes the data of an item, where items are not dropped. -/
def takeItem (call : OpenCall) (data : Json) : OpenCall :=
  match call.stage with
  | .awaiting _ | .collecting =>
    match WorkResponse.codec.ofJson data with
    | .ok item => { call with stage := afterTaking call.stage, items := call.items ++ [item] }
    | .error e => call.failed (.malformed e)
  | _ => call

def takeResponse (call : OpenCall) (response : Response) : OpenCall :=
  match response.error with
  | some error => call.failed (.rpc error)
  | none =>
    match call.invocation.valueOf call.items (response.result.getD .null) with
    | .error e => call.failed (.malformed e)
    | .ok value =>
      { call with
        stage := .ended (.ok
          { value, metadata := response.metadata, bytesOut := call.bytesOut, bytesIn := call.bytesIn }) }

def takeLine (call : OpenCall) (text : List Char) : OpenCall :=
  match incomingOf text with
  | .error e => call.failed (.malformed e)
  | .ok (.frame frame) =>
    match frame.kind with
    | .item => call.takeItem frame.data
    | .finish => call
  | .ok (.response response) => call.takeResponse response

/-- Reads a message; nothing happens while none is there. -/
def read (call : OpenCall) (wire : Wire) : OpenCall × Wire :=
  let (read, size, wire) := wire.nextLine
  let call := { call with bytesIn := call.bytesIn + size }
  match read with
  | .waiting => (call, wire)
  | .ended => (call.failed .closed, wire)
  | .malformed fault => (call.failed (.transport fault.message), wire)
  | .line text => (call.takeLine text, wire)

/-- The frame of a request in the stream of the call. -/
def itemLine (call : OpenCall) (request : WorkRequest) : List Char :=
  (Frame.item (some call.id) (WorkRequest.codec.toJson request)).line

def step (call : OpenCall) (wire : Wire) : OpenCall × Wire :=
  match call.stage with
  | .opening => call.write wire call.request.line (afterRequest call.invocation)
  | .sending [] => call.write wire (Frame.finish (some call.id)).line .finishing
  | .sending (request :: left) => call.write wire (call.itemLine request) (afterItem call.invocation left)
  | .awaiting _ | .collecting | .finishing => call.read wire
  | .ended _ => (call, wire)

/-- Nothing happens without the daemon: the call is over, or it waits for a line. -/
def isWaiting (call : OpenCall) (wire : Wire) : Bool :=
  match call.stage with
  | .awaiting _ | .collecting | .finishing => wire.readLine.1 == .waiting
  | .ended _ => true
  | .opening | .sending _ => false

end OpenCall

end Client

/-- A client, with the call that it is making if there is one. -/
structure Client where
  wire : Wire := {}
  nextId : UInt64 := 1
  call : Option Client.OpenCall := none

namespace Client

def begin (client : Client) (invocation : Invocation) (correlation : Correlation) (order : MapOrder := .listed) : Client :=
  { client with
    nextId := client.nextId + 1
    call := some { id := .number client.nextId, invocation, correlation, order } }

def step (client : Client) : Client :=
  match client.call with
  | none => client
  | some call =>
    let (call, wire) := call.step client.wire
    { client with wire, call := some call }

def result? (client : Client) : Option (Except Failure Reply) := client.call.bind OpenCall.result?

def isWaiting (client : Client) : Bool :=
  match client.call with
  | none => true
  | some call => call.isWaiting client.wire

/-- Steps until the client waits, at most `fuel` of them. -/
def settle : Nat → Client → Client
  | 0, client => client
  | fuel + 1, client => if client.isWaiting then client else settle fuel client.step

end Client

end LoadGenerator
