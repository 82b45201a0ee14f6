import LoadGenerator.Client.Basic

/-!
# Scripted daemons

A daemon's side that follows a script: it takes lines, sends bytes whatever the lines say, and at the end of the script ends its side.
-/

namespace LoadGenerator.Client

inductive ScriptStep where
  | read (count : Nat)
  | write (bytes : List UInt8)
  deriving DecidableEq

def ScriptStep.apply (client : Client) : ScriptStep → Client
  | .read _ => client
  | .write bytes => { client with wire := client.wire.deliver bytes }

/-- Lets the client and the script act in turn until the call returns; the client takes at most `fuel` steps at a time. The script that is left is for the calls to come. -/
def followScript (fuel : Nat) : List ScriptStep → Client → Client × List ScriptStep
  | [], client => (({ client with wire := client.wire.endInput } : Client).settle fuel, [])
  | step :: rest, client =>
    let client := client.settle fuel
    if client.result?.isSome then (client, step :: rest) else followScript fuel rest (step.apply client)

end LoadGenerator.Client
