import LoadGenerator.Connection.Wire
import LoadGenerator.Message.Frame
import LoadGenerator.Service.Call

/-!
# The stream of an open call

While a call is open, the lines of its connection are its frames. The call takes requests from the item frames that carry its id, up to the end frame or the end of the input, and its responses leave as item frames. Blank lines between frames are skipped, and counted.
-/

namespace LoadGenerator.Connection

open Message Service

/-- What an open call knows of its stream. -/
structure CallStream where
  id : Option RequestId
  cancelled : Bool := false
  ended : Bool := false
  /-- Bytes of the lines read for the call, its request among them. -/
  bytesIn : Nat
  /-- Bytes of the lines written for the call. -/
  bytesOut : Nat := 0
  deriving DecidableEq

/-- The request that a line brings to the call of this id, or the end of the requests. -/
def requestOf (id : Option RequestId) (text : List Char) : Except StreamFault (Option WorkRequest) :=
  match Frame.codec.parse (String.ofList text) with
  | .error e => .error (.malformed e)
  | .ok frame =>
    if frame.id ≠ id then
      .error (.unexpected
        s!"frame for call {RequestId.description frame.id} while call {RequestId.description id} is open")
    else
      match frame.kind with
      | .finish => .ok none
      | .item =>
        match WorkRequest.codec.ofJson frame.data with
        | .error e => .error (.malformed e)
        | .ok request => .ok (some request)

def receive (s : Wire × CallStream) : Option (Except Status (Option WorkRequest)) × Wire × CallStream :=
  if s.2.ended then (some (.ok none), s)
  else
    let (read, size, wire) := s.1.nextLine
    let stream := { s.2 with bytesIn := s.2.bytesIn + size }
    match read with
    | .waiting => (none, wire, stream)
    | .ended => (some (.ok none), wire, { stream with ended := true })
    | .malformed fault => (some (.error (StreamFault.transport fault.message).toStatus), wire, stream)
    | .line text =>
      match requestOf stream.id text with
      | .ok none => (some (.ok none), wire, { stream with ended := true })
      | .ok (some request) => (some (.ok (some request)), wire, stream)
      | .error fault => (some (.error fault.toStatus), wire, stream)

/-- Writes a line for the call. Only a line that is written whole counts. -/
def writeLine (text : List Char) (s : Wire × CallStream) : Bool × Wire × CallStream :=
  match s.1.write (Utf8.encode text) with
  | (true, wire) => (true, wire, { s.2 with bytesOut := s.2.bytesOut + Utf8.size text })
  | (false, wire) => (false, wire, s.2)

def writeFault : StreamFault := .transport Wire.writeFailure

def send (s : Wire × CallStream) (response : WorkResponse) : Except Status Unit × Wire × CallStream :=
  match writeLine (Frame.item s.2.id (WorkResponse.codec.toJson response)).line s with
  | (true, s) => (.ok (), s)
  | (false, s) => (.error writeFault.toStatus, s)

/-- The other side of a call, over its connection. -/
def peer : Peer (Wire × CallStream) where
  cancelled s := (s.2.cancelled, s)
  receive := receive
  send := send

end LoadGenerator.Connection
