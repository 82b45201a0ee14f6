import LoadGenerator.Proofs.Client.Course
import LoadGenerator.Session

/-!
# What a call returns

What the client gets back from each of its calls is what the daemon's call gave for the requests as they are received, run on the draws that the calls before it have left. The call of the daemon that the request line opens is found here for every call that a client can make, with its answer.
-/

namespace LoadGenerator

open Message Service Client

namespace Client

/-- A call whose numbers have a form on the wire, with a stream that a summary can count. -/
def Invocation.IsSendable : Invocation → Prop
  | health | ping => True
  | work request => HasFiniteRate request.config
  | repeated request => HasFiniteRate request.config
  | tally requests => requests.length < 2147483648 ∧ ∀ request ∈ requests, HasFiniteRate request.config
  | exchange requests => ∀ request ∈ requests, HasFiniteRate request.config
  | raw _ _ => False

/-- What a call may return on these draws, and the draws that it leaves. -/
inductive Returns (settings : Settings) (draws : Load.Draws) : Invocation → Except Failure Reply → Load.Draws → Prop where
  | health {reply : Reply} (hvalue : reply.value = .health (Service.health settings)) : Returns settings draws .health (.ok reply) draws
  | ping {reply : Reply} (hvalue : reply.value = .pong Service.pong) : Returns settings draws .ping (.ok reply) draws
  | work {request : WorkRequest} {reply : Reply} {response : WorkResponse} {after : Shared} (hvalue : reply.value = .work response)
      (hrun : runItem settings.limits { draws } request.received = (response, after)) :
      Returns settings draws (.work request) (.ok reply) after.draws
  | refused {request : RepeatRequest} {error : RpcError} (htimes : request.times ≤ 0) (hstatus : error.status? = some "FAILED_PRECONDITION") :
      Returns settings draws (.repeated request) (.error (.rpc error)) draws
  | repeated {request : RepeatRequest} {reply : Reply} {responses : List WorkResponse} {after : Shared} (htimes : 0 < request.times)
      (hvalue : reply.value = .responses responses) (hcount : (responses.length : Int) = request.times.toInt)
      (hrun : runItems settings.limits { draws } (List.replicate responses.length ⟨request.requestId, request.received.config⟩) = (responses, after)) :
      Returns settings draws (.repeated request) (.ok reply) after.draws
  | tally {requests : List WorkRequest} {reply : Reply} {summary : WorkSummary} {responses : List WorkResponse} {after : Shared}
      (hvalue : reply.value = .summary summary) (htotal : summary.total.toInt = requests.length)
      (hrun : runItems settings.limits { draws } (requests.map WorkRequest.received) = (responses, after))
      (hsummary : summary = tallyItems {} (requests.map WorkRequest.received) responses) :
      Returns settings draws (.tally requests) (.ok reply) after.draws
  | exchange {requests : List WorkRequest} {reply : Reply} {responses : List WorkResponse} {after : Shared}
      (hvalue : reply.value = .responses responses) (hcount : responses.length = requests.length)
      (hrun : runItems settings.limits { draws } (requests.map WorkRequest.received) = (responses, after)) :
      Returns settings draws (.exchange requests) (.ok reply) after.draws

/-! ## Taking the response -/

theorem takeLine_failure (call : OpenCall) (daemon : Connection.OpenCall) (status : Status) :
    call.takeLine (daemon.response (.error status)).line = { call with stage := .ended (.error (.rpc status.toRpcError)) } := by
  rw [OpenCall.takeLine, incomingOf_response]
  rfl

theorem takeLine_success (call : OpenCall) (daemon : Connection.OpenCall) {reply : Service.Reply} {value : Value}
    (hvalue : call.invocation.valueOf call.items reply.toJson = .ok value) :
    ∃ r : Reply, call.takeLine (daemon.response (.ok reply)).line = { call with stage := .ended (.ok r) } ∧ r.value = value := by
  have hresult : (some reply.toJson).filter (!·.isNull) = if reply.toJson.isNull then none else some reply.toJson := by
    cases reply.toJson <;> rfl
  have hgiven : ((some reply.toJson).filter (!·.isNull)).getD .null = reply.toJson := by
    rw [hresult]
    cases hjson : reply.toJson <;> rfl
  refine ⟨{ value, metadata := daemon.metadata, bytesOut := call.bytesOut, bytesIn := call.bytesIn }, ?_, rfl⟩
  rw [OpenCall.takeLine, incomingOf_response]
  simp only [Connection.OpenCall.response, Response.success, OpenCall.takeResponse]
  rw [hgiven, hvalue]

section

variable {invocation : Invocation} {items : List WorkResponse} {allowed : Except Failure Reply → Prop} (daemon : Connection.OpenCall)

theorem ends_of_success {reply : Service.Reply} {value : Value} (hcounts : Answer.Counts ⟨items, (daemon.response (.ok reply)).line⟩ invocation)
    (hvalue : invocation.valueOf items reply.toJson = .ok value) (hallowed : ∀ r : Reply, r.value = value → allowed (.ok r)) :
    Answer.Ends ⟨items, (daemon.response (.ok reply)).line⟩ invocation allowed where
  counts := hcounts
  full := isFullLine_lineOf Response.record _
  ends call hinvocation hitems := by
    have hcall : call.invocation.valueOf call.items reply.toJson = .ok value := by rw [hinvocation, hitems, hvalue]
    obtain ⟨r, htake, hr⟩ := takeLine_success call daemon hcall
    exact ⟨_, htake, hallowed r hr⟩

theorem ends_of_failure {status : Status} (hcounts : Answer.Counts ⟨items, (daemon.response (.error status)).line⟩ invocation)
    (hallowed : allowed (.error (.rpc status.toRpcError))) : Answer.Ends ⟨items, (daemon.response (.error status)).line⟩ invocation allowed where
  counts := hcounts
  full := isFullLine_lineOf Response.record _
  ends call _ _ := ⟨_, takeLine_failure call daemon status, hallowed⟩

end

theorem valueOf_health (items : List WorkResponse) (health : Health) :
    Invocation.health.valueOf items (Service.Reply.health health).toJson = .ok (.health health) := by
  rw [Invocation.valueOf, Service.Reply.toJson, Health.ofJson_toJson]
  rfl

theorem valueOf_ping (items : List WorkResponse) (reply : PingReply) :
    Invocation.ping.valueOf items (Service.Reply.pong reply).toJson = .ok (.pong reply) := by
  rw [Invocation.valueOf, Service.Reply.toJson, PingReply.ofJson_toJson]
  rfl

theorem valueOf_work (request : WorkRequest) (items : List WorkResponse) (response : WorkResponse) :
    (Invocation.work request).valueOf items (Service.Reply.work response).toJson = .ok (.work response) := by
  rw [Invocation.valueOf, Service.Reply.toJson, WorkResponse.ofJson_toJson]
  rfl

theorem valueOf_tally (requests : List WorkRequest) (items : List WorkResponse) (summary : WorkSummary) :
    (Invocation.tally requests).valueOf items (Service.Reply.summary summary).toJson = .ok (.summary summary) := by
  rw [Invocation.valueOf, Service.Reply.toJson, WorkSummary.ofJson_toJson]
  rfl

/-! ## The call that a request opens -/

/-- The call of the daemon for what a client asks. -/
def Invocation.opened (settings : Settings) : Invocation → Call
  | health => .finished .unary (.ok (.health (Service.health settings)))
  | ping => .finished .unary (.ok (.pong Service.pong))
  | work request => .unary request.received
  | repeated request => .repeated request.received
  | tally _ => .tally
  | exchange _ => .exchange
  | raw method params => openCall settings method params

theorem openCall_of_sendable (settings : Settings) {invocation : Invocation} (h : invocation.IsSendable) :
    openCall settings invocation.method invocation.params.reread = invocation.opened settings := by
  cases invocation with
  | health => rfl
  | ping => rfl
  | work request =>
    have hdecode : decodeParams WorkRequest.codec (WorkRequest.codec.toJson request).reread = .ok request.received := by
      rw [decodeParams, if_neg (show ¬ (WorkRequest.codec.toJson request).reread.isNull = true from nofun), WorkRequest.ofJson_reread h]
    change openCall settings workMethod (WorkRequest.codec.toJson request).reread = _
    rw [openCall, if_neg (by decide), if_neg (by decide), if_pos rfl, openWith, hdecode]
    rfl
  | repeated request =>
    have hdecode : decodeParams RepeatRequest.codec (RepeatRequest.codec.toJson request).reread = .ok request.received := by
      rw [decodeParams, if_neg (show ¬ (RepeatRequest.codec.toJson request).reread.isNull = true from nofun), RepeatRequest.ofJson_reread h]
    change openCall settings repeatMethod (RepeatRequest.codec.toJson request).reread = _
    rw [openCall, if_neg (by decide), if_neg (by decide), if_neg (by decide), if_pos rfl, openWith, hdecode]
    rfl
  | tally requests => rfl
  | exchange requests => rfl
  | raw method params => cases h

theorem opens_of_writable {call : OpenCall} (hwritable : call.invocation.params.IsWritable) (hdepth : call.invocation.params.depth ≤ 2) :
    Connection.Opens call.request.line call.request.received where
  visible := (isFullLine_lineOf Request.record call.request).visible
  parsed := Request.parse_line hwritable (lt_of_le_of_lt hdepth (by decide))
  version := rfl

theorem opens_request {call : OpenCall} (h : call.invocation.IsSendable) : Connection.Opens call.request.line call.request.received := by
  have hparams : call.invocation.params.IsWritable ∧ call.invocation.params.depth ≤ 2 := by
    cases hinvocation : call.invocation with
    | work request =>
      rw [hinvocation] at h
      exact ⟨WorkRequest.isWritable_toJson h, WorkRequest.depth_toJson h⟩
    | repeated request =>
      rw [hinvocation] at h
      exact ⟨RepeatRequest.isWritable_toJson h, RepeatRequest.depth_toJson h⟩
    | raw method params =>
      rw [hinvocation] at h
      cases h
    | ping => exact ⟨trivial, Nat.le_succ 1⟩
    | _ => exact ⟨trivial, Nat.zero_le 2⟩
  exact opens_of_writable hparams.1 hparams.2

theorem Invocation.IsSendable.rates {invocation : Invocation} (h : invocation.IsSendable) : ∀ request ∈ invocation.streamed, HasFiniteRate request.config := by
  cases invocation with
  | tally requests => exact h.2
  | exchange requests => exact h
  | _ => exact nofun

section

variable {settings : Settings} {invocation : Invocation} {daemon : Connection.OpenCall}

/-- The stream of the client is the one that the daemon's call takes. -/
theorem stands_opened (h : invocation.IsSendable) (hcall : daemon.call = invocation.opened settings) (hlive : daemon.stream.cancelled = false)
    (hended : daemon.stream.ended = false) {id : RequestId} (hid : daemon.stream.id = some id) :
    daemon.Stands invocation.streamed (invocation.streamLines id) := by
  refine ⟨hlive, ?_, ?_⟩
  · intro hunary
    rw [hcall] at hunary ⊢
    cases invocation with
    | repeated request =>
      simp only [Invocation.opened, Call.repeated] at hunary
      split_ifs at hunary
      cases hunary
    | raw method params => cases h
    | tally requests => cases hunary
    | exchange requests => cases hunary
    | _ => exact ⟨nofun, nofun⟩
  · have halone (hshape : ¬ (invocation.opened settings).shape.IsFed) : daemon.Takes [] [] := .nothing fun _ => by rwa [hcall]
    have hstream (hshape : (invocation.opened settings).shape.IsFed) (hnone : (invocation.opened settings).outcome? = none) :
        daemon.Takes invocation.streamed (Connection.requestLines (some id) invocation.streamed) := by
      rw [← hid]
      exact .stream (by rwa [hcall]) (by rwa [hcall]) hended (Invocation.IsSendable.rates h)
    cases invocation with
    | health => exact halone Shape.not_isFed_unary
    | ping => exact halone Shape.not_isFed_unary
    | work request => exact halone Shape.not_isFed_unary
    | repeated request =>
      refine halone ?_
      simp only [Invocation.opened, Call.repeated]
      split_ifs <;> exact Shape.not_isFed_repeated _ _
    | tally requests => exact hstream (Shape.isFed_tally {}) rfl
    | exchange requests => exact hstream Shape.isFed_exchange rfl
    | raw method params => cases h

/-- What the daemon's call will give is an answer that the client can return. -/
theorem ends_opened (h : invocation.IsSendable) (hcall : daemon.call = invocation.opened settings) (draws : Load.Draws) :
    Answer.Ends ⟨(daemon.prospect settings draws invocation.streamed).responses,
        (daemon.response (daemon.prospect settings draws invocation.streamed).outcome).line⟩ invocation
      (fun result => Returns settings draws invocation result (daemon.prospect settings draws invocation.streamed).draws) := by
  have hprospect : daemon.prospect settings draws invocation.streamed =
      (invocation.opened settings).prospect settings.limits draws (invocation.streamed.map WorkRequest.received) := by
    rw [Connection.OpenCall.prospect, hcall]
  rw [hprospect]
  cases invocation with
  | health => exact ends_of_success daemon rfl (valueOf_health _ _) fun r hr => .health hr
  | ping => exact ends_of_success daemon rfl (valueOf_ping _ _) fun r hr => .ping hr
  | work request =>
    rcases hrun : runItem settings.limits { draws } request.received with ⟨response, after⟩
    simp only [Invocation.opened, Call.unary, Call.prospect, hrun]
    exact ends_of_success daemon rfl (valueOf_work request _ _) fun r hr => .work hr hrun
  | repeated request =>
    by_cases htimes : request.received.times ≤ 0
    · simp only [Invocation.opened, Call.repeated, if_pos htimes]
      exact ends_of_failure daemon trivial (.refused htimes rfl)
    · rcases hrun : runItems settings.limits { draws }
        (List.replicate request.received.times.toNatClampNeg ⟨request.received.requestId, request.received.config⟩) with ⟨responses, after⟩
      have hlength : responses.length = request.received.times.toNatClampNeg := by
        have hcount := length_runItems settings.limits { draws }
          (List.replicate request.received.times.toNatClampNeg ⟨request.received.requestId, request.received.config⟩)
        rwa [hrun, List.length_replicate] at hcount
      have hpositive : 0 < request.received.times := Int32.not_le.mp htimes
      have hcount : (responses.length : Int) = request.received.times.toInt := by
        rw [hlength, ← Int32.toNat_toInt]
        exact Int.toNat_of_nonneg (Int32.lt_iff_toInt_lt.mp hpositive).le
      simp only [Invocation.opened, Call.repeated, if_neg htimes, Call.prospect, Shape.prospect, hrun]
      rw [← hlength] at hrun
      exact ends_of_success daemon trivial rfl fun r hr => .repeated hpositive hr hcount hrun
  | tally requests =>
    rcases hrun : runItems settings.limits { draws } (requests.map WorkRequest.received) with ⟨responses, after⟩
    have hlength : responses.length = (requests.map WorkRequest.received).length := by
      have hcount := length_runItems settings.limits { draws } (requests.map WorkRequest.received)
      rwa [hrun] at hcount
    obtain ⟨htotal, -⟩ := summary_spec _ responses hlength (by rw [List.length_map]; exact h.1)
    rw [List.length_map] at htotal
    simp only [Invocation.opened, Invocation.streamed, Call.tally, Call.prospect, Shape.prospect, hrun]
    exact ends_of_success daemon rfl (valueOf_tally requests _ _) fun r hr => .tally hr htotal hrun rfl
  | exchange requests =>
    rcases hrun : runItems settings.limits { draws } (requests.map WorkRequest.received) with ⟨responses, after⟩
    have hlength : responses.length = requests.length := by
      have hcount := length_runItems settings.limits { draws } (requests.map WorkRequest.received)
      rwa [hrun, List.length_map] at hcount
    simp only [Invocation.opened, Invocation.streamed, Call.exchange, Call.prospect, Shape.prospect, hrun]
    exact ends_of_success daemon hlength rfl fun r hr => .exchange hr hlength hrun
  | raw method params => cases h

end

end Client

end LoadGenerator
