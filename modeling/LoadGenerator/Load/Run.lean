import LoadGenerator.Load.Engine
import LoadGenerator.Load.Worker.Thread

/-!
# The life of a run

A run is a machine driven by events in any order: the latency timer, the deadline, cancellation by the parent, and what its workers do. It owns a token that workers watch; the token is cancelled by the deadline, by the parent, and at the latest when the run returns or its caller gives it up. Workers are started one after another and go on side by side, and the run returns once it has the report of each; those of a run that was given up go on without it. Events that do not apply leave the run as it is.
-/

namespace LoadGenerator.Load

inductive RunStage where
  /-- Accepted, and waiting for its latency. -/
  | waiting
  /-- Doing its work, with these workers still to be started. -/
  | working (pending : List Worker)
  | returned (outcome : Outcome)
  /-- Given up by its caller before it returned. -/
  | dropped

structure Run where
  spec : Spec
  own : Option Draws
  stage : RunStage
  parentCancelled : Bool
  /-- Whether the run's own token is cancelled, once there is one. -/
  token : Option Bool
  /-- The workers that were started, in order. -/
  workers : List WorkerThread
  /-- The scratch directory. -/
  directory : Directory

inductive RunEvent where
  | parentCancels
  | deadline
  | latencyElapsed
  /-- The run looks at its token, or at a latency of zero, while waiting. -/
  | resume
  /-- The run starts its next worker. -/
  | launch
  | move (place : Nat) (move : Move)
  /-- The run takes the report of the worker at this place. -/
  | join (place : Nat)
  /-- The run finds that it has all reports. -/
  | conclude
  /-- The caller gives the run up. -/
  | drop
  deriving DecidableEq

/-- An event that comes from the run and its workers, not from the parent or the caller. -/
def RunEvent.isInner : RunEvent → Bool
  | .parentCancels | .drop => false
  | _ => true

namespace Run

def start (limits : Limits) (spec : Spec) (own : Option Draws) (parentCancelled : Bool) (directory : Directory) : Run :=
  let blank (stage : RunStage) (token : Option Bool) : Run :=
    { spec, own, stage, parentCancelled, token, workers := [], directory }
  match spec.validate limits with
  | .error violation => blank (.returned (.error (.invalid violation))) none
  | .ok () => blank .waiting (some parentCancelled)

def isCancelled (run : Run) : Bool := run.token.getD false

/-- Cancels the run's own token. -/
def cancel (run : Run) : Run := { run with token := run.token.map fun _ => true }

/-- Returns, which cancels the token. -/
def finish (run : Run) (outcome : Outcome) : Run := { run.cancel with stage := .returned outcome }

/-- Decides about the injected failure, and goes on to the workers where there is none. -/
def decideFault (run : Run) (shared : Draws) : Run × Draws :=
  let (failed, rest) := fails run.spec.errorRate (run.own.getD shared)
  let (own, shared) := if run.own.isSome then (some rest, shared) else (none, rest)
  let run := { run with own }
  if failed then (run.finish (.error .injected), shared) else ({ run with stage := .working run.spec.workers }, shared)

/-- A move of the worker at a place. -/
def moveWorker (run : Run) (place : Nat) (move : Move) : Run :=
  match run.workers[place]? with
  | none => run
  | some worker =>
    let (stage, directory) := worker.stage.next run.spec.ioBytes.toNatClampNeg run.isCancelled run.directory move
    { run with workers := run.workers.set place { worker with stage }, directory }

/-- Takes the report of the worker at a place, if it has ended. -/
def joinWorker (run : Run) (place : Nat) : Run :=
  match run.workers[place]? with
  | none => run
  | some worker => { run with workers := run.workers.set place { worker with joined := worker.joined || !worker.stage.isLive } }

def apply (run : Run) (shared : Draws) (event : RunEvent) : Run × Draws :=
  match event, run.stage with
  | .parentCancels, _ => ({ run.cancel with parentCancelled := true }, shared)
  | .deadline, _ => (run.cancel, shared)
  | .latencyElapsed, .waiting => run.decideFault shared
  | .resume, .waiting =>
    if run.spec.latency.nanoseconds = 0 ∨ run.isCancelled = true then run.decideFault shared else (run, shared)
  | .launch, .working (worker :: pending) =>
    ({ run with stage := .working pending, workers := run.workers ++ [.start run.spec worker] }, shared)
  | .move place move, _ => (run.moveWorker place move, shared)
  | .join place, .working [] => (run.joinWorker place, shared)
  | .conclude, .working [] => (if run.workers.all (·.joined) then run.finish (.ok ()) else run, shared)
  | .drop, .waiting | .drop, .working _ => ({ run.cancel with stage := .dropped }, shared)
  | _, _ => (run, shared)

def applyAll (run : Run) (shared : Draws) (events : List RunEvent) : Run × Draws :=
  events.foldl (fun (run, shared) event => run.apply shared event) (run, shared)

def outcome? (run : Run) : Option Outcome :=
  match run.stage with
  | .returned outcome => some outcome
  | _ => none

/-- The workers that ended by a failure. -/
def failed (run : Run) : List Worker := (run.workers.filter (·.hasFailed)).map (·.kind)

/-- The files of the run in the scratch directory. -/
def files (run : Run) : List String := run.workers.filterMap fun worker => worker.stage.file?

/-- How many files the run has in the scratch directory. -/
def scratchFiles (run : Run) : Nat := run.files.length

/-! ## Runs on an exact clock -/

/-- What a worker does by itself at once: a disk worker creates its file, or fails where its directory is missing, and each worker ends if the token is cancelled. No worker takes more steps to see that than a processor worker. -/
def workerMoves (run : Run) : List Move :=
  let opening := match run.directory with
    | some _ => Move.create "burner-io-"
    | none => .fail "No such file or directory (os error 2)"
  opening :: if run.isCancelled then List.replicate (Processor.pollInterval.toNat + 1) .step else []

/-- What a run does by itself between two timers. -/
def settle (run : Run) (shared : Draws) : Run × Draws :=
  let (run, shared) := run.apply shared .resume
  let pending := match run.stage with
    | .working pending => pending
    | _ => []
  let (run, shared) := run.applyAll shared (pending.map fun _ => .launch)
  let turns := (List.range run.workers.length).flatMap fun place => run.workerMoves.map (.move place) ++ [.join place]
  run.applyAll shared (turns ++ [.conclude])

/-- Puts a timed event behind those that are not later. -/
def schedule (time : Nat) (event : RunEvent) : List (Nat × RunEvent) → List (Nat × RunEvent)
  | [] => [(time, event)]
  | (other, first) :: rest =>
    if time < other then (time, event) :: (other, first) :: rest else (other, first) :: schedule time event rest

/-- The timers of a run, and the cancellation of its parent if that has a time. -/
def agenda (spec : Spec) (cancelAt : Option Nat) : List (Nat × RunEvent) :=
  let timers := schedule spec.duration.nanoseconds.toNat .deadline
    (schedule spec.latency.nanoseconds.toNat .latencyElapsed [])
  match cancelAt with
  | some time => schedule time .parentCancels timers
  | none => timers

/-- Follows the timers until the run returns; the time is the one at which it does. -/
def follow (run : Run) (shared : Draws) (now : Nat) : List (Nat × RunEvent) → Run × Draws × Nat
  | [] => (run, shared, now)
  | (time, event) :: rest =>
    if run.outcome?.isSome then (run, shared, now)
    else
      let (run, shared) := run.apply shared event
      let (run, shared) := run.settle shared
      follow run shared time rest

/-- A whole run on an exact clock: how it ends, the draws after it, and how long it took in nanoseconds. -/
def play (limits : Limits) (spec : Spec) (own : Option Draws) (shared : Draws) (parentCancelled : Bool)
    (cancelAt : Option Nat) (directoryMissing : Bool) : Run × Draws × Nat :=
  let directory := if directoryMissing then none else some []
  let (run, shared) := (start limits spec own parentCancelled directory).settle shared
  run.follow shared 0 (agenda spec cancelAt)

end Run

end LoadGenerator.Load
