/-!
# Churning a scratch file

The disk worker writes the head of its file over and over, in passes: back to the start, writes of one buffer each until all bytes are written, then a synchronisation. It looks at its token before every pass and before every write.
-/

namespace LoadGenerator.Load.Disk

def bufferLimit : Nat := 32768

inductive Action where
  | rewind
  | write (offset length : Nat)
  | sync
  deriving DecidableEq

inductive Stage where
  | betweenPasses
  | writing (remaining : Nat)
  | stopped
  deriving DecidableEq

structure Churn where
  size : Nat
  stage : Stage
  offset : Nat
  fileLength : Nat
  deriving DecidableEq

def Churn.start (size : Nat) : Churn := ⟨size, .betweenPasses, 0, 0⟩

/-- The next thing the worker does, given what it would see at its token. -/
def Churn.next (churn : Churn) (cancelled : Bool) : Option Action × Churn :=
  match churn.stage with
  | .stopped => (none, churn)
  | .betweenPasses =>
    if cancelled then (none, { churn with stage := .stopped })
    else (some .rewind, { churn with stage := .writing churn.size, offset := 0 })
  | .writing remaining =>
    if remaining = 0 then (some .sync, { churn with stage := .betweenPasses })
    else if cancelled then (none, { churn with stage := .stopped })
    else
      let length := min remaining (min bufferLimit churn.size)
      (some (.write churn.offset length),
        { churn with
          stage := .writing (remaining - length)
          offset := churn.offset + length
          fileLength := max churn.fileLength (churn.offset + length) })

/-- The worker after a number of steps, with what it did; `cancelled k` is what step `k` would see. -/
def after (size : Nat) (cancelled : Nat → Bool) : Nat → List Action × Churn
  | 0 => ([], .start size)
  | n + 1 =>
    let (actions, churn) := after size cancelled n
    let (action, churn) := churn.next (cancelled n)
    (actions ++ action.toList, churn)

end LoadGenerator.Load.Disk
