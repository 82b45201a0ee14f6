import LoadGenerator.Configuration.Basic
import LoadGenerator.Connection.Basic
import LoadGenerator.Service.Probe

/-!
# The daemon

A daemon serves any number of connections with one service: they share its draws, its metrics and its log. The steps of different connections can follow each other in any order.
-/

namespace LoadGenerator

structure Daemon where
  settings : Service.Settings
  shared : Service.Shared
  connections : List Connection := []
  shutdown : Bool := false

inductive DaemonEvent where
  /-- A peer connects; the ids are for its requests that have none, and the orders for the metadata of the responses. -/
  | accept (ids : Nat → String) (orders : Nat → Message.MapOrder)
  | connection (place : Nat) (event : ConnectionEvent)
  | shutdown

/-- The service that a configuration asks for. -/
def Configuration.settings (configuration : Configuration) : Service.Settings where
  limits := configuration.limits
  version := configuration.serviceVersion

namespace Daemon

/-- A daemon that nobody has called yet. -/
def start (configuration : Configuration) (draws : Load.Draws) : Daemon where
  settings := configuration.settings
  shared := { draws }

def applyAt (daemon : Daemon) (place : Nat) (event : ConnectionEvent) : Daemon :=
  match daemon.connections[place]? with
  | none => daemon
  | some conn =>
    let (conn, shared) := conn.apply daemon.settings daemon.shared event
    { daemon with shared, connections := daemon.connections.set place conn }

/-- One event. A daemon that is shutting down takes no new connections. -/
def apply (daemon : Daemon) : DaemonEvent → Daemon
  | .accept ids orders =>
    if daemon.shutdown then daemon else { daemon with connections := daemon.connections ++ [{ ids, orders }] }
  | .connection place event => daemon.applyAt place event
  | .shutdown =>
    { daemon with
      shutdown := true
      connections := daemon.connections.map fun conn => (conn.apply daemon.settings daemon.shared .shutdown).1 }

def applyAll (daemon : Daemon) (events : List DaemonEvent) : Daemon := events.foldl apply daemon

def fetch? (daemon : Daemon) (method target : String) : Option Service.Page :=
  Service.fetch? daemon.shared.metrics daemon.shutdown method target

end Daemon

end LoadGenerator
