import LoadGenerator.Client.Basic
import LoadGenerator.Connection.Basic

/-!
# Sessions

A client and the daemon's side of its connection, joined by two byte channels that lose and reorder nothing. The client makes a list of calls one after another. Its steps, those of the connection and the arrival of the bytes can follow each other in any order, and bytes arrive in any portions.
-/

namespace LoadGenerator

open Client

structure Errand where
  invocation : Invocation
  correlation : Correlation := {}
  /-- The order in which the metadata of its request is written. -/
  order : Message.MapOrder := .listed

structure Session where
  client : Client := {}
  connection : Connection
  shared : Service.Shared
  errands : List Errand
  /-- The results of the calls that have returned, in order. -/
  results : List (Except Failure Reply) := []

inductive SessionEvent where
  | client
  | daemon
  /-- The connection looks out for the client hanging up. -/
  | watch
  /-- Bytes from the client arrive, at most this many. -/
  | toDaemon (count : Nat)
  /-- Bytes from the connection arrive, at most this many. -/
  | toClient (count : Nat)
  deriving DecidableEq

namespace Session

/-- Moves bytes that the client has written, at most this many, to the inbox of the connection. -/
def carryToDaemon (session : Session) (count : Nat) : Session :=
  let (bytes, client) := session.client.wire.depart count
  { session with
    client := { session.client with wire := client }
    connection := { session.connection with wire := session.connection.wire.deliver bytes } }

/-- The same in the other direction. -/
def carryToClient (session : Session) (count : Nat) : Session :=
  let (bytes, daemon) := session.connection.wire.depart count
  { session with
    client := { session.client with wire := session.client.wire.deliver bytes }
    connection := { session.connection with wire := daemon } }

/-- Hands over what either side has written. -/
def exchange (session : Session) : Session :=
  (session.carryToDaemon session.client.wire.outbox.length).carryToClient session.connection.wire.outbox.length

/-- A step of the client: it notes the result of its call, begins the next one, or goes on with the present one. -/
def stepClient (session : Session) : Session :=
  match session.client.result? with
  | some result =>
    { session with client := { session.client with call := none }, results := session.results ++ [result] }
  | none =>
    match session.client.call, session.errands with
    | none, [] => session
    | none, errand :: rest =>
      { session with client := session.client.begin errand.invocation errand.correlation errand.order, errands := rest }
    | some _, _ => { session with client := session.client.step }

def applyConnection (session : Session) (settings : Service.Settings) (event : ConnectionEvent) : Session :=
  let (connection, shared) := session.connection.apply settings session.shared event
  { session with connection, shared }

def apply (settings : Service.Settings) (session : Session) : SessionEvent → Session
  | .client => session.stepClient
  | .daemon => session.applyConnection settings .step
  | .watch => session.applyConnection settings .watch
  | .toDaemon count => session.carryToDaemon count
  | .toClient count => session.carryToClient count

def applyAll (settings : Service.Settings) (session : Session) (events : List SessionEvent) : Session :=
  events.foldl (apply settings) session

def isOver (session : Session) : Bool := session.errands.isEmpty && session.client.call.isNone

/-- Nothing is on its way in either direction, and nothing that has arrived is unread. -/
def channelsEmpty (session : Session) : Bool :=
  session.client.wire.outbox.isEmpty && session.connection.wire.inbox.isEmpty && session.connection.wire.outbox.isEmpty &&
    session.client.wire.inbox.isEmpty

/-- Lets the client and the connection step until all calls have returned, at most `fuel` times; what is written arrives at once. -/
def run (settings : Service.Settings) : Nat → Session → Session
  | 0, session => session
  | fuel + 1, session =>
    if session.isOver then session
    else
      let event := if session.client.isWaiting && session.client.result?.isNone && session.client.call.isSome
        then SessionEvent.daemon else .client
      run settings fuel (session.apply settings event).exchange

end Session

end LoadGenerator
