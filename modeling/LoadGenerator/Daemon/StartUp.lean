import LoadGenerator.Configuration.Environment
import LoadGenerator.Daemon.Basic
import LoadGenerator.Log.Filter
import LoadGenerator.Network.Address

/-!
# Starting the daemon

The daemon needs a configuration and two addresses to listen on, one for calls and one for pages. What it says about an address that it cannot use goes to its log and not to standard error.
-/

namespace LoadGenerator

inductive StartUp where
  | misconfigured (error : ConfigurationError)
  | unbound (purpose address reason : String)
  | listening (configuration : Configuration)

namespace StartUp

/-- The status with which the program ends, if it does not go on to serve. -/
def exitStatus? : StartUp → Option Nat
  | misconfigured _ => some 1
  | unbound _ _ _ => some 2
  | listening _ => none

/-- What the program writes to standard error, given the text of the filter of its log. -/
def complaints (filterText : String) : StartUp → List String
  | misconfigured error => [s!"Failed to load configuration: {error.message}"]
  | unbound _ _ _ | listening _ => Log.Filter.complaints filterText

/-- Listens on an address; a network that refuses gives its reason. -/
def bind (refusal : Network.Address → Option String) (purpose address : String) : Except StartUp Network.Address :=
  match Network.Address.parse address with
  | .error e => .error (.unbound purpose address e.message)
  | .ok parsed =>
    match refusal parsed with
    | some reason => .error (.unbound purpose address reason)
    | none => .ok parsed

/-- The network once an address is taken; the number zero stands for any free one. -/
def without (taken : Network.Address) (refusal : Network.Address → Option String) (address : Network.Address) :
    Option String :=
  if address = taken ∧ address.portNumber ≠ 0 then some "Address already in use (os error 98)" else refusal address

/-- Listens on the addresses of a configuration, the one for calls first. -/
def listen (refusal : Network.Address → Option String) (configuration : Configuration) : Except StartUp Configuration := do
  let taken ← bind refusal "RPC" configuration.rpcAddress
  let _ ← bind (without taken refusal) "metrics" configuration.metricsAddress
  return configuration

/-- Starts on the network that refuses these addresses. -/
def run (maxParallelism : Int32) (files : Configuration.Files) (env : Environment)
    (refusal : Network.Address → Option String) : StartUp :=
  match Configuration.load maxParallelism files env with
  | .error e => .misconfigured e
  | .ok configuration =>
    match listen refusal configuration with
    | .error failure => failure
    | .ok configuration => .listening configuration

end StartUp

end LoadGenerator
