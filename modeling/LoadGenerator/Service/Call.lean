import LoadGenerator.Load.Engine
import LoadGenerator.Message.Work
import LoadGenerator.Service.Metrics
import LoadGenerator.Service.ConfigSpec

/-!
# Calls

A call is a machine that turns requests into runs of load. It comes in four shapes: one run and its response; the same run several times with a response each; a summary over a stream of requests; and a response to each request of a stream before the next one is read. What is on the other side is a peer: a token to look at, a stream to receive from and a sink to send to. Each step does one thing and says what it did; a step that finds nothing to receive says nothing.
-/

namespace LoadGenerator.Service

open Message

structure Settings where
  limits : Load.Limits
  version : String := "dev"

structure Shared where
  draws : Load.Draws
  metrics : Metrics := {}
  /-- The finished calls, the latest last. -/
  log : List CallEvent := []

/-- The failure of an item: its label and its message. -/
abbrev ItemFailure := String × String

def invalidItem (e : InvalidConfig) : ItemFailure := ("invalid", e.message)

def failureOf : Load.Outcome → Option ItemFailure
  | .ok () => none
  | .error e => some (e.label, e.message)

/-- The outcome of one run: nothing, or its failure. -/
def runConfig (limits : Load.Limits) (draws : Load.Draws) (config : Option WorkConfig) : Option ItemFailure × Load.Draws :=
  match toSpec config with
  | .error e => (some (invalidItem e), draws)
  | .ok spec =>
    let (outcome, draws) := Load.attempt limits spec draws
    (failureOf outcome, draws)

/-- Counts an item that has been run, and reports it under the id of its request. A failure is part of the response. -/
def answerItem (shared : Shared) (request : WorkRequest) (failure : Option ItemFailure) : WorkResponse × Shared :=
  let label := modeLabel request.config
  match failure with
  | none =>
    ({ requestId := request.requestId, ok := true }, { shared with metrics := shared.metrics.recordRun label "success" })
  | some (outcome, message) =>
    ({ requestId := request.requestId, ok := false, errorMessage := message },
      { shared with metrics := shared.metrics.recordRun label outcome })

/-- Runs one item. -/
def runItem (limits : Load.Limits) (shared : Shared) (request : WorkRequest) : WorkResponse × Shared :=
  let (failure, draws) := runConfig limits shared.draws request.config
  answerItem { shared with draws } request failure

structure Peer (σ : Type) where
  /-- Looks at the call's token. -/
  cancelled : σ → Bool × σ
  /-- The next request, the end of the stream, or its failure; nothing while none of these is there. -/
  receive : σ → Option (Except Status (Option WorkRequest)) × σ
  send : σ → WorkResponse → Except Status Unit × σ

inductive Reply where
  | health (health : Health)
  | pong (reply : PingReply)
  | work (response : WorkResponse)
  | summary (summary : WorkSummary)
  | nothing
  deriving DecidableEq

def Reply.toJson : Reply → Json
  | health h => Health.codec.toJson h
  | pong r => PingReply.codec.toJson r
  | work r => WorkResponse.codec.toJson r
  | summary s => WorkSummary.codec.toJson s
  | nothing => .null

/-- The shape of a call, with what its loop holds. -/
inductive Shape where
  | unary
  | repeated (request : WorkRequest) (left : Nat)
  | tally (summary : WorkSummary)
  | exchange
  deriving DecidableEq

/-- Where a call stands. -/
inductive CallStage where
  | head
  | running (request : WorkRequest)
  | sending (response : WorkResponse)
  | ended (outcome : Except Status Reply)

structure Call where
  shape : Shape
  stage : CallStage

inductive Act where
  | sawCancelled
  | received (request : WorkRequest)
  | streamEnded
  | streamFailed (status : Status)
  | ran (response : WorkResponse)
  | sent (response : WorkResponse)
  | sendFailed (status : Status)
  | completed
  deriving DecidableEq

/-- The summary with one more request and its response. -/
def tallyItem (summary : WorkSummary) (request : WorkRequest) (response : WorkResponse) : WorkSummary :=
  { requestId := if summary.requestId.isEmpty then request.requestId else summary.requestId
    total := summary.total + 1
    success := if response.ok then summary.success + 1 else summary.success
    failed := if response.ok then summary.failed else summary.failed + 1 }

namespace Call

def finished (shape : Shape) (outcome : Except Status Reply) : Call := ⟨shape, .ended outcome⟩

def unary (request : WorkRequest) : Call := ⟨.unary, .running request⟩

/-- A call of the repeating shape; it needs a positive number of times. -/
def repeated (request : RepeatRequest) : Call :=
  let item : WorkRequest := { requestId := request.requestId, config := request.config }
  if request.times ≤ 0 then finished (.repeated item 0) (.error ⟨.failedPrecondition, "repeat must be > 0"⟩)
  else ⟨.repeated item request.times.toNatClampNeg, .head⟩

def tally : Call := ⟨.tally {}, .head⟩

def exchange : Call := ⟨.exchange, .head⟩

def outcome? (call : Call) : Option (Except Status Reply) :=
  match call.stage with
  | .ended outcome => some outcome
  | _ => none

def streamReply : Shape → Reply
  | .tally summary => .summary summary
  | _ => .nothing

/-- A call after it has run a request to this response. -/
def afterRun (request : WorkRequest) (response : WorkResponse) : Shape → Call
  | .unary => .finished .unary (.ok (.work response))
  | .tally summary => ⟨.tally (tallyItem summary request response), .head⟩
  | shape => ⟨shape, .sending response⟩

def step (peer : Peer σ) (limits : Load.Limits) (call : Call) (shared : Shared) (s : σ) :
    Option Act × Call × Shared × σ :=
  match call.stage, call.shape with
  | .ended _, _ => (none, call, shared, s)
  | .running request, shape =>
    let (response, shared) := runItem limits shared request
    (some (.ran response), afterRun request response shape, shared, s)
  | .sending response, shape =>
    match peer.send s response with
    | (.ok (), s) => (some (.sent response), ⟨shape, .head⟩, shared, s)
    | (.error status, s) => (some (.sendFailed status), finished shape (.error status), shared, s)
  | .head, .repeated request 0 => (some .completed, finished (.repeated request 0) (.ok .nothing), shared, s)
  | .head, .repeated request (left + 1) =>
    match peer.cancelled s with
    | (true, s) => (some .sawCancelled, finished (.repeated request (left + 1)) (.error .callCancelled), shared, s)
    | (false, s) =>
      let (response, shared) := runItem limits shared request
      (some (.ran response), ⟨.repeated request left, .sending response⟩, shared, s)
  | .head, shape =>
    match peer.cancelled s with
    | (true, s) => (some .sawCancelled, finished shape (.error .callCancelled), shared, s)
    | (false, s) =>
      match peer.receive s with
      | (none, s) => (none, call, shared, s)
      | (some (.ok (some request)), s) => (some (.received request), ⟨shape, .running request⟩, shared, s)
      | (some (.ok none), s) => (some .streamEnded, finished shape (.ok (streamReply shape)), shared, s)
      | (some (.error status), s) => (some (.streamFailed status), finished shape (.error status), shared, s)

/-- At most `fuel` steps, with what they did; the call stops early where a step does nothing. -/
def run (peer : Peer σ) (limits : Load.Limits) : Nat → Call → Shared → σ → List Act × Call × Shared × σ
  | 0, call, shared, s => ([], call, shared, s)
  | fuel + 1, call, shared, s =>
    match step peer limits call shared s with
    | (none, call, shared, s) => ([], call, shared, s)
    | (some act, call, shared, s) =>
      let (acts, rest) := run peer limits fuel call shared s
      (act :: acts, rest)

end Call

def health (settings : Settings) : Health := { status := "SERVING", version := some settings.version }

def pong : PingReply := { message := "pong" }

/-- Decodes the parameters of a call; absent ones stand for an empty object. -/
def decodeParams (codec : JsonCodec α) (params : Json) : Except Status α :=
  match codec.ofJson (if params.isNull then .object [] else params) with
  | .ok a => .ok a
  | .error e => .error ⟨.invalidArgument, s!"invalid params: {e.message}"⟩

/-- A call whose parameters decide how it starts. -/
def openWith (codec : JsonCodec α) (params : Json) (start : α → Call) : Call :=
  match decodeParams codec params with
  | .ok a => start a
  | .error status => .finished .unary (.error status)

def openCall (settings : Settings) (method : String) (params : Json) : Call :=
  if method = healthMethod then .finished .unary (.ok (.health (health settings)))
  else if method = pingMethod then openWith PingRequest.codec params fun _ => .finished .unary (.ok (.pong pong))
  else if method = workMethod then openWith WorkRequest.codec params .unary
  else if method = repeatMethod then openWith RepeatRequest.codec params .repeated
  else if method = tallyMethod then .tally
  else if method = exchangeMethod then .exchange
  else .finished .unary (.error ⟨.unimplemented, s!"Method not found: {method}"⟩)

/-- The mode of a call in metrics and logs. -/
def callMode (method : String) (params : Json) : String :=
  if method = workMethod ∨ method = repeatMethod then
    modeLabel ((params.get? "config").bind fun config => (WorkConfig.codec.ofJson config).toOption)
  else if method = tallyMethod ∨ method = exchangeMethod then "stream"
  else ""

end LoadGenerator.Service
