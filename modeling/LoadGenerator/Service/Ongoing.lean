import LoadGenerator.Load.Run
import LoadGenerator.Service.Call

/-!
# Calls while they run

A call that runs an item waits for a run that has a life of its own. The token of the call can be cancelled at any moment, which cancels the run along with it; but the call looks at its token at the head of its loop only, and what it makes of a run is what the run returned. The other steps are those of the call.
-/

namespace LoadGenerator.Service

open Message

/-- What a call receives and where its responses go. -/
structure Feed (σ : Type) where
  receive : σ → Except Status (Option WorkRequest) × σ
  send : σ → WorkResponse → Except Status Unit × σ

/-- The peer of a call whose token is this. -/
def Feed.peer (feed : Feed σ) (cancelled : Bool) : Peer σ where
  cancelled s := (cancelled, s)
  receive s :=
    let (received, s) := feed.receive s
    (some received, s)
  send := feed.send

/-- The item that a call would run next, and the shape that it would have then. -/
def Call.nextItem? (cancelled : Bool) (call : Call) : Option (WorkRequest × Shape) :=
  match call.stage, call.shape with
  | .running request, shape => some (request, shape)
  | .head, .repeated request (left + 1) => if cancelled then none else some (request, .repeated request left)
  | _, _ => none

structure Ongoing (σ : Type) where
  call : Call
  /-- The request that the call runs and its run, while it waits for one. -/
  item? : Option (WorkRequest × Load.Run) := none
  cancelled : Bool
  shared : Shared
  /-- The scratch directory. -/
  directory : Load.Directory := some []
  /-- The state of the feed. -/
  peer : σ
  /-- What the call has done. -/
  acts : List Act := []

inductive OngoingEvent where
  /-- Someone cancels the token of the call. -/
  | cancel
  /-- The call goes on, if it need not wait. -/
  | step
  /-- Something happens to the run that the call waits for. -/
  | run (event : Load.RunEvent)
  deriving DecidableEq

namespace Ongoing

/-- The call has the outcome of an item. -/
def closeItem (ongoing : Ongoing σ) (request : WorkRequest) (failure : Option ItemFailure) : Ongoing σ :=
  let (response, shared) := answerItem ongoing.shared request failure
  { ongoing with
    call := Call.afterRun request response ongoing.call.shape
    item? := none
    shared
    acts := ongoing.acts ++ [.ran response] }

/-- The call comes to an item. Its run is a child of the call. -/
def openItem (limits : Load.Limits) (ongoing : Ongoing σ) (request : WorkRequest) (shape : Shape) : Ongoing σ :=
  let ongoing := { ongoing with call := ⟨shape, .running request⟩ }
  match toSpec request.config with
  | .error e => ongoing.closeItem request (some (invalidItem e))
  | .ok spec => { ongoing with item? := some (request, .start limits spec none ongoing.cancelled ongoing.directory) }

def step (limits : Load.Limits) (feed : Feed σ) (ongoing : Ongoing σ) : Ongoing σ :=
  match ongoing.item? with
  | some (request, run) =>
    match run.outcome? with
    | none => ongoing
    | some outcome => { ongoing with directory := run.directory }.closeItem request (failureOf outcome)
  | none =>
    match ongoing.call.nextItem? ongoing.cancelled with
    | some (request, shape) => ongoing.openItem limits request shape
    | none =>
      let (act, call, shared, peer) := ongoing.call.step (feed.peer ongoing.cancelled) limits ongoing.shared ongoing.peer
      { ongoing with call, shared, peer, acts := ongoing.acts ++ act.toList }

/-- An event of the run that the call waits for. -/
def applyRun (ongoing : Ongoing σ) (event : Load.RunEvent) : Ongoing σ :=
  match ongoing.item? with
  | none => ongoing
  | some (request, run) =>
    let (run, draws) := run.apply ongoing.shared.draws event
    { ongoing with item? := some (request, run), shared := { ongoing.shared with draws } }

def apply (limits : Load.Limits) (feed : Feed σ) (ongoing : Ongoing σ) : OngoingEvent → Ongoing σ
  | .cancel => { ongoing.applyRun .parentCancels with cancelled := true }
  | .step => ongoing.step limits feed
  | .run event => if event.isInner then ongoing.applyRun event else ongoing

def applyAll (limits : Load.Limits) (feed : Feed σ) (ongoing : Ongoing σ) (events : List OngoingEvent) : Ongoing σ :=
  events.foldl (apply limits feed) ongoing

/-- Takes the run that the call waits for to its end on an exact clock. -/
def playRun (ongoing : Ongoing σ) : Ongoing σ :=
  match ongoing.item? with
  | none => ongoing
  | some (request, run) =>
    let (run, draws) := run.settle ongoing.shared.draws
    let (run, draws, _) := run.follow draws 0 (Load.Run.agenda run.spec none)
    { ongoing with item? := some (request, run), shared := { ongoing.shared with draws } }

end Ongoing

end LoadGenerator.Service
