import LoadGenerator.Load.Spec
import LoadGenerator.Load.Worker.Disk
import LoadGenerator.Load.Worker.Processor

/-!
# Workers

A worker goes on by moves, which come in any order with those of other workers: a step of its loop, the creation of its file, or the failure of the file operation that would be next. It ends where it sees its token cancelled, or where an operation fails. A disk worker has one entry in the scratch directory, from the creation of its file until it ends, whatever the reason.
-/

namespace LoadGenerator.Load

inductive Worker where
  | processor
  | memory
  | disk
  deriving DecidableEq

def Worker.name : Worker → String
  | processor => "cpu"
  | memory => "mem"
  | disk => "io"

/-- The workers of a run, in the order in which they are started. -/
def Spec.workers (spec : Spec) : List Worker :=
  (if spec.mode.usesCpu then List.replicate spec.parallelism.toNatClampNeg .processor else [])
    ++ (if spec.mode.usesMemory then [.memory] else []) ++ (if spec.mode.usesDisk then [.disk] else [])

/-- The entries of a directory, if there is one. -/
abbrev Directory := Option (List String)

inductive WorkerStage where
  | spinning (spin : Processor.Spin)
  /-- Takes memory, chunk by chunk. -/
  | committing (taken left : Nat)
  /-- Keeps its memory until the token is cancelled. -/
  | holding (chunks : Nat)
  /-- Has no file yet. -/
  | opening
  | churning (file : String) (churn : Disk.Churn)
  /-- Nothing is left but the report, with the reason of a failure. -/
  | ended (failure : Option String)
  deriving DecidableEq

structure WorkerThread where
  kind : Worker
  stage : WorkerStage
  /-- Whether the run has taken its report. -/
  joined : Bool := false
  deriving DecidableEq

inductive Move where
  | step
  | create (file : String)
  | fail (reason : String)
  deriving DecidableEq

namespace WorkerStage

def start (spec : Spec) : Worker → WorkerStage
  | .processor => spinning .start
  | .memory => committing 0 spec.allocMb.toNatClampNeg
  | .disk => opening

/-- The end of a disk worker, which takes its file along. -/
def leave (file : String) (failure : Option String) (directory : Directory) : WorkerStage × Directory :=
  (ended failure, directory.map fun entries => entries.erase file)

/-- One move, where the disk worker writes this many bytes in a pass. A file is only created under a new name, and only an operation that would be next can fail. Moves that do not apply change nothing. -/
def next (size : Nat) (cancelled : Bool) (directory : Directory) (stage : WorkerStage) (move : Move) : WorkerStage × Directory :=
  match stage, move with
  | spinning spin, .step =>
    match spin.next cancelled with
    | some spin => (spinning spin, directory)
    | none => (ended none, directory)
  | committing taken left, .step =>
    (if left = 0 ∨ cancelled = true then holding taken else committing (taken + 1) (left - 1), directory)
  | holding chunks, .step => (if cancelled then ended none else holding chunks, directory)
  | opening, .create file =>
    match directory with
    | none => (opening, none)
    | some entries =>
      if file ∈ entries then (opening, some entries) else (churning file (.start size), some (entries ++ [file]))
  | opening, .fail reason => (ended (some reason), directory)
  | churning file churn, .step =>
    match churn.next cancelled with
    | (some _, churn) => (churning file churn, directory)
    | (none, _) => leave file none directory
  | churning file churn, .fail reason => leave file ((churn.next cancelled).1.map fun _ => reason) directory
  | stage, _ => (stage, directory)

def isLive : WorkerStage → Bool
  | ended _ => false
  | _ => true

/-- The file that the worker has in the scratch directory. -/
def file? : WorkerStage → Option String
  | churning file _ => some file
  | _ => none

end WorkerStage

namespace WorkerThread

def start (spec : Spec) (kind : Worker) : WorkerThread := ⟨kind, .start spec kind, false⟩

/-- Whether the worker has ended by a failure. -/
def hasFailed (thread : WorkerThread) : Bool :=
  match thread.stage with
  | .ended failure => failure.isSome
  | _ => false

end WorkerThread

end LoadGenerator.Load
