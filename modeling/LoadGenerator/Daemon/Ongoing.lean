import LoadGenerator.Daemon.Basic
import LoadGenerator.Service.Ongoing

/-!
# The daemon while items run

An item takes its time. The call that runs it waits for a run with a life of its own, and meanwhile other connections go on and run items as well. All runs take their draws from one stream and work in one scratch directory, and what comes of them goes into one set of counts. Everything else is as for the connections by themselves.
-/

namespace LoadGenerator

open Message Service

/-- A connection, with the request that its call runs and the run that the call waits for. -/
structure OngoingConnection where
  conn : Connection
  item? : Option (WorkRequest × Load.Run) := none

structure OngoingDaemon where
  settings : Service.Settings
  shared : Service.Shared
  /-- The scratch directory. -/
  directory : Load.Directory := some []
  connections : List OngoingConnection := []
  shutdown : Bool := false

inductive OngoingDaemonEvent where
  | daemon (event : DaemonEvent)
  /-- Something happens to the run that the call of a connection waits for. -/
  | run (place : Nat) (event : Load.RunEvent)

namespace Connection

/-- Whether the token of the open call is cancelled. -/
def isCancelled (conn : Connection) : Bool :=
  match conn.phase with
  | .serving call => call.stream.cancelled
  | _ => false

/-- The connection with its open call at another stage. -/
def withCall (conn : Connection) (call : OpenCall) (next : Call) : Connection :=
  { conn with phase := .serving { call with call := next } }

end Connection

namespace OngoingConnection

/-- A step of the connection that does not wait. -/
def stepAtOnce (settings : Settings) (ongoing : OngoingConnection) (shared : Shared) : OngoingConnection × Shared :=
  let (conn, shared) := ongoing.conn.step settings shared
  ({ ongoing with conn }, shared)

/-- The call comes to an item. One that has a spec is run as a child of the call; another one is answered at once. -/
def openItem (settings : Settings) (ongoing : OngoingConnection) (shared : Shared) (directory : Load.Directory)
    (call : Connection.OpenCall) (request : WorkRequest) (shape : Shape) : OngoingConnection × Shared :=
  match toSpec request.config with
  | .error _ => ongoing.stepAtOnce settings shared
  | .ok spec =>
    ({ conn := ongoing.conn.withCall call ⟨shape, .running request⟩
       item? := some (request, .start settings.limits spec none call.stream.cancelled directory) }, shared)

/-- The call has the outcome of its item. -/
def closeItem (ongoing : OngoingConnection) (shared : Shared) (call : Connection.OpenCall) (request : WorkRequest)
    (outcome : Load.Outcome) : OngoingConnection × Shared :=
  let (response, shared) := answerItem shared request (failureOf outcome)
  ({ conn := ongoing.conn.withCall call (.afterRun request response call.call.shape) }, shared)

/-- A step of the connection, which waits where its call waits for a run. -/
def step (settings : Settings) (ongoing : OngoingConnection) (shared : Shared) (directory : Load.Directory) :
    OngoingConnection × Shared :=
  match ongoing.conn.phase, ongoing.item? with
  | .serving call, some (request, run) =>
    match run.outcome? with
    | none => (ongoing, shared)
    | some outcome => ongoing.closeItem shared call request outcome
  | .serving call, none =>
    match call.call.nextItem? call.stream.cancelled with
    | some (request, shape) => ongoing.openItem settings shared directory call request shape
    | none => ongoing.stepAtOnce settings shared
  | _, _ => ongoing.stepAtOnce settings shared

/-- Something happens to the run that the call waits for. -/
def applyRun (ongoing : OngoingConnection) (shared : Shared) (directory : Load.Directory) (event : Load.RunEvent) :
    OngoingConnection × Shared × Load.Directory :=
  match ongoing.item? with
  | none => (ongoing, shared, directory)
  | some (request, run) =>
    let (run, draws) := { run with directory }.apply shared.draws event
    ({ ongoing with item? := some (request, run) }, { shared with draws }, run.directory)

/-- What an event on a connection means for the run that its call waits for, if anything. -/
def runEvent? (conn : Connection) : ConnectionEvent → Option Load.RunEvent
  | .abort => some .drop
  | _ => if conn.isCancelled then some .parentCancels else none

def apply (settings : Settings) (ongoing : OngoingConnection) (shared : Shared) (directory : Load.Directory) :
    ConnectionEvent → OngoingConnection × Shared × Load.Directory
  | .step =>
    let (ongoing, shared) := ongoing.step settings shared directory
    (ongoing, shared, directory)
  | event =>
    let (conn, shared) := ongoing.conn.apply settings shared event
    let ongoing := { ongoing with conn }
    match runEvent? conn event with
    | none => (ongoing, shared, directory)
    | some event => ongoing.applyRun shared directory event

end OngoingConnection

namespace OngoingDaemon

/-- A daemon that nobody has called yet. -/
def start (settings : Settings) (draws : Load.Draws) (directory : Load.Directory) : OngoingDaemon where
  settings := settings
  shared := { draws }
  directory := directory

/-- Changes the connection at a place, along with what all connections have in common. -/
def changeAt (daemon : OngoingDaemon) (place : Nat)
    (change : OngoingConnection → Shared → Load.Directory → OngoingConnection × Shared × Load.Directory) : OngoingDaemon :=
  match daemon.connections[place]? with
  | none => daemon
  | some ongoing =>
    let (ongoing, shared, directory) := change ongoing daemon.shared daemon.directory
    { daemon with shared, directory, connections := daemon.connections.set place ongoing }

def applyAt (daemon : OngoingDaemon) (place : Nat) (event : ConnectionEvent) : OngoingDaemon :=
  daemon.changeAt place fun ongoing shared directory => ongoing.apply daemon.settings shared directory event

/-- One event. A daemon that is shutting down takes no new connections. -/
def apply (daemon : OngoingDaemon) : OngoingDaemonEvent → OngoingDaemon
  | .daemon (.accept ids orders) =>
    if daemon.shutdown then daemon else { daemon with connections := daemon.connections ++ [{ conn := { ids, orders } }] }
  | .daemon (.connection place event) => daemon.applyAt place event
  | .daemon .shutdown =>
    (List.range daemon.connections.length).foldl (fun daemon place => daemon.applyAt place .shutdown) { daemon with shutdown := true }
  | .run place event =>
    if event.isInner then daemon.changeAt place fun ongoing shared directory => ongoing.applyRun shared directory event else daemon

def applyAll (daemon : OngoingDaemon) (events : List OngoingDaemonEvent) : OngoingDaemon := events.foldl apply daemon

end OngoingDaemon

end LoadGenerator
