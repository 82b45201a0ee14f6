import LoadGenerator.Service.Ongoing

/-!
# Scripted peers

A peer that hands out a fixed list of requests and then ends or fails, takes responses until its sink breaks, and cancels the call at given points.
-/

namespace LoadGenerator.Service

open Message

structure Script where
  /-- The requests not yet handed out. -/
  items : List WorkRequest
  /-- The failure at the end of the requests, if they do not just end. -/
  failure : Option Status := none
  /-- How many responses are taken before the sink fails, and how it does. -/
  sinkFailure : Option (Nat × Status) := none
  /-- The token is cancelled when the request of this number, from one, is handed out. -/
  cancelAtReceive : Option Nat := none
  /-- The token is cancelled when the response of this number, from one, is taken. -/
  cancelAfterSend : Option Nat := none
  cancelled : Bool := false
  received : Nat := 0
  sent : Nat := 0

namespace Script

def receive (script : Script) : Option (Except Status (Option WorkRequest)) × Script :=
  match script.items with
  | [] =>
    (some (match script.failure with
      | none => .ok none
      | some status => .error status), script)
  | request :: rest =>
    let received := script.received + 1
    let cancelled := script.cancelled || script.cancelAtReceive == some received
    (some (.ok (some request)), { script with items := rest, received, cancelled })

def send (script : Script) : Except Status Unit × Script :=
  match script.sinkFailure with
  | some (0, status) => (.error status, script)
  | sink =>
    let sent := script.sent + 1
    let cancelled := script.cancelled || script.cancelAfterSend == some sent
    (.ok (), { script with sinkFailure := sink.map fun (left, status) => (left - 1, status), sent, cancelled })

def peer : Peer Script where
  cancelled script := (script.cancelled, script)
  receive := receive
  send script _ := script.send

/-- The script without its token. Its requests are never late. -/
def feed : Feed Script where
  receive script :=
    match script.receive with
    | (some received, script) => (received, script)
    | (none, script) => (.ok none, script)
  send script _ := script.send

/-- A number of turns of a call, in each of which the script cancels the token if it is time, the call takes a step, and a run that it then waits for goes to its end. -/
def conduct (limits : Load.Limits) : Nat → Ongoing Script → Ongoing Script
  | 0, ongoing => ongoing
  | turns + 1, ongoing =>
    let ongoing := if ongoing.peer.cancelled then ongoing.apply limits feed .cancel else ongoing
    conduct limits turns (ongoing.apply limits feed .step).playRun

/-- Runs a call to its end; every request and every repetition takes at most four turns. -/
def run (limits : Load.Limits) (call : Call) (shared : Shared) (script : Script) : List Act × Call × Shared × Script :=
  let left := match call.shape with
    | .repeated _ left => left
    | _ => 0
  let ended := conduct limits (4 * (script.items.length + left) + 4) { call, cancelled := script.cancelled, shared, peer := script }
  (ended.acts, ended.call, ended.shared, ended.peer)

end Script

end LoadGenerator.Service
