import LoadGenerator.Proofs.Connection.Ledger
import LoadGenerator.Proofs.Connection.Serving
import LoadGenerator.Proofs.Session.Invariant

/-!
# The same bytes on both sides

A client counts the bytes of each of its calls, and so does the daemon. During a call the lines that the client has written are those that the daemon has taken and those on their way, and the same in the other direction; and the daemon does not end a call before it has taken all that the client writes for it. So when a call returns a reply, what both sides have counted is the same.
-/

namespace LoadGenerator

open Message Service
open Connection (Opens AreItems requestLines itemLine)
open Client (EndsCalls endsCalls_response)

/-! ## Entries of calls -/

/-- The line with which a client makes the call of an errand under an id. -/
def Errand.requestLine (errand : Errand) (id : RequestId) : List Char :=
  ({ id, invocation := errand.invocation, correlation := errand.correlation, order := errand.order } : Client.OpenCall).request.line

/-- A stream that only adds up to a summary has requests that the daemon can read. -/
def Errand.IsReadable (errand : Errand) : Prop :=
  ∀ requests, errand.invocation = .tally requests → ∀ request ∈ requests, HasFiniteRate request.config

/-- A rate that has no JSON form reads back as null, from which the daemon takes no request: it leaves the stream before its end frame, and the frame is then answered as a request. -/
example : (WorkRequest.codec.ofJson (WorkRequest.codec.toJson { config := some { errorRate := .nan } }).reread).isOk = false := by
  decide +kernel

/-- The log entry of a call that this line opens, with these bytes. -/
def IsEntry (event : CallEvent) (line : List Char) (bytesIn bytesOut : Nat) : Prop :=
  ∃ request, Opens line request ∧ event.labels = ⟨callMode request.method request.params, request.method⟩ ∧
    event.bytesIn = bytesIn ∧ event.bytesOut = bytesOut

/-- A call that returns a reply has a log entry, which has the bytes that the reply says. -/
def Reported (errand : Errand) (result : Except Client.Failure Client.Reply) (event? : Option CallEvent) : Prop :=
  ∀ reply, result = .ok reply → ∃ event id, event? = some event ∧ IsEntry event (errand.requestLine id) reply.bytesOut reply.bytesIn

/-- The results of calls made one after another, and the log entries that they leave. -/
inductive ReportedAll : List Errand → List (Except Client.Failure Client.Reply) → List CallEvent → Prop where
  | nil : ReportedAll [] [] []
  | cons {errand : Errand} {errands : List Errand} {result : Except Client.Failure Client.Reply}
      {results : List (Except Client.Failure Client.Reply)} {log : List CallEvent} (event? : Option CallEvent)
      (hfirst : Reported errand result event?) (hrest : ReportedAll errands results log) :
      ReportedAll (errand :: errands) (result :: results) (event?.toList ++ log)

theorem ReportedAll.snoc {errands : List Errand} {results : List (Except Client.Failure Client.Reply)} {log : List CallEvent}
    (h : ReportedAll errands results log) {errand : Errand} {result : Except Client.Failure Client.Reply} {event? : Option CallEvent}
    (hlast : Reported errand result event?) : ReportedAll (errands ++ [errand]) (results ++ [result]) (log ++ event?.toList) := by
  induction h with
  | nil =>
    rw [List.nil_append, ← List.append_nil event?.toList]
    exact .cons event? hlast .nil
  | cons first hfirst _ ih =>
    rw [List.append_assoc]
    exact .cons first hfirst ih

theorem ReportedAll.length_eq {errands : List Errand} {results : List (Except Client.Failure Client.Reply)} {log : List CallEvent}
    (h : ReportedAll errands results log) : results.length = errands.length := by
  induction h with
  | nil => rfl
  | cons _ _ _ ih => rw [List.length_cons, List.length_cons, ih]

/-! ## In step -/

/-- How many lines more than it has written an open call with an answer to each request has taken at least. -/
def Connection.lead : CallStage → Nat
  | .head => 1
  | _ => 2

/-- An open call of the daemon has taken these lines of a call of the client, and does not end before it has taken all that will be written. -/
inductive Lockstep (daemon : Connection.OpenCall) (call : Client.OpenCall) (took : List (List Char)) (written : Nat) : Prop where
  | whole (htook : took = call.plan)
  | tally {summary : WorkSummary} {stage : CallStage} {left : List WorkRequest} (hcall : daemon.call = ⟨.tally summary, stage⟩)
      (hstage : stage = .head ∨ ∃ request, stage = .running request) (hended : daemon.stream.ended = false)
      (hid : daemon.stream.id = some call.id) (hrates : ∀ request ∈ left, HasFiniteRate request.config)
      (htook : took ++ requestLines (some call.id) left = call.plan)
  | exchange {requests : List WorkRequest} {stage : CallStage} (hinvocation : call.invocation = .exchange requests)
      (hcall : daemon.call = ⟨.exchange, stage⟩) (hended : daemon.call.outcome? = none → daemon.stream.ended = false)
      (hcount : written + Connection.lead stage ≤ took.length)

section

variable {daemon : Connection.OpenCall} {call : Client.OpenCall} {took toDaemon : List (List Char)}

/-- When the daemon's call is over, nothing is on its way to the daemon, and the client's call reads; it has read all items if it would go on writing after the next. -/
theorem Lockstep.over {written read : Nat} (h : Lockstep daemon call took written) {outcome : Except Status Reply}
    (houtcome : daemon.call.outcome? = some outcome) (hunderway : call.Underway (took ++ toDaemon) read) (hread : read ≤ written) :
    toDaemon = [] ∧ call.stage.IsReading ∧ ∀ left, call.stage = .awaiting left → written = read := by
  cases h with
  | whole htook =>
    have hplan := hunderway.plan
    rw [List.append_assoc, htook, List.append_right_eq_self, List.append_eq_nil_iff] at hplan
    obtain ⟨hreading, hawaiting⟩ := hunderway.isReading hplan.2
    exact ⟨hplan.1, hreading, fun left hstage => absurd hstage (hawaiting left)⟩
  | tally hcall hstage =>
    rw [hcall] at houtcome
    rcases hstage with rfl | ⟨request, rfl⟩ <;> cases houtcome
  | @exchange requests stage hinvocation hcall _ hcount =>
    have hturns := hunderway.turns requests hinvocation
    have hlead : Connection.lead stage = 2 := by
      rw [hcall] at houtcome
      cases stage with
      | head => cases houtcome
      | _ => rfl
    rw [hlead] at hcount
    rw [List.length_append] at hturns
    have hcases : ∀ {left : Nat}, call.stage.turns = left → left ≤ 2 → left = 2 ∧ toDaemon.length = 0 ∧ written = read := by
      intro left hleft hbound
      rw [hleft] at hturns
      omega
    have hlive := hunderway.live
    cases hstage : call.stage with
    | opening => cases (hcases (congrArg Client.Stage.turns hstage) (Nat.zero_le 2)).1
    | sending left => cases (hcases (congrArg Client.Stage.turns hstage) (Nat.le_succ 1)).1
    | ended result =>
      rw [Client.OpenCall.result?, hstage] at hlive
      cases hlive
    | _ =>
      obtain ⟨-, hnone, hsame⟩ := hcases (congrArg Client.Stage.turns hstage) (Nat.le_refl 2)
      exact ⟨List.length_eq_zero_iff.mp hnone, trivial, fun _ _ => hsame⟩

/-- A step of the daemon's call keeps it in step with the client's, or it waits for a line. -/
def Lockstep.GoesOn (settings : Settings) (method : String) (conn : Connection) (daemon : Connection.OpenCall) (shared : Shared)
    (missing : List UInt8) (call : Client.OpenCall) (took toDaemon : List (List Char)) (written : Nat) : Prop :=
  conn.step settings shared = (conn, shared) ∨
    ∃ taken toDaemon' new daemon',
      Connection.Serves method conn daemon shared missing toDaemon taken toDaemon' new (conn.step settings shared).1 daemon' (conn.step settings shared).2 ∧
        Lockstep daemon' call (took ++ taken) (written + new.length)

variable {conn : Connection} {settings : Settings} {shared : Shared} {missing : List UInt8} {method : String} {written : Nat}

/-- A call that adds up takes the next request or the end of its stream. -/
theorem Lockstep.goesOn_tally (hphase : conn.phase = .serving daemon) (hopen : conn.IsOpen missing toDaemon.flatten)
    (hsuits : daemon.call.Suits method) (hlive : daemon.stream.cancelled = false) (hpending : ∀ line ∈ toDaemon, IsFullLine line)
    {summary : WorkSummary} {left : List WorkRequest} (hcall : daemon.call = ⟨.tally summary, .head⟩) (hended : daemon.stream.ended = false)
    (hid : daemon.stream.id = some call.id) (hrates : ∀ request ∈ left, HasFiniteRate request.config)
    (htook : took ++ requestLines (some call.id) left = call.plan) {sent : List (List Char)} (hsent : took ++ toDaemon ++ sent = call.plan) :
    Lockstep.GoesOn settings method conn daemon shared missing call took toDaemon written := by
  rcases Connection.serves_of_receiving settings shared hopen hphase hsuits hcall (Shape.isFed_tally summary) hlive hended hpending with hstill | ⟨line, rest, rfl, hserves⟩
  · exact .inl hstill
  · refine .inr ⟨_, _, _, _, hserves, ?_⟩
    rw [List.append_assoc, ← htook] at hsent
    have hlines := List.append_cancel_left hsent
    cases left with
    | nil =>
      obtain ⟨rfl, -⟩ := List.cons.inj hlines
      exact .whole htook
    | cons request left =>
      obtain ⟨rfl, -⟩ := List.cons.inj hlines
      obtain ⟨hrate, hrates'⟩ := List.forall_mem_cons.mp hrates
      obtain ⟨bytesIn, hafter⟩ := Connection.afterLine_item daemon.stream hrate
      rw [← hid, hafter]
      refine .tally rfl (.inr ⟨_, rfl⟩) hended hid hrates' ?_
      rw [hid, List.append_assoc]
      exact htook

/-- A call that answers each request takes the next line when it has answered the last. -/
theorem Lockstep.goesOn_exchange (hphase : conn.phase = .serving daemon) (hopen : conn.IsOpen missing toDaemon.flatten)
    (hsuits : daemon.call.Suits method) (hlive : daemon.stream.cancelled = false) (hpending : ∀ line ∈ toDaemon, IsFullLine line)
    {requests : List WorkRequest} (hinvocation : call.invocation = .exchange requests) {stage : CallStage} (hcall : daemon.call = ⟨.exchange, stage⟩)
    (houtcome : daemon.call.outcome? = none) (hended : daemon.stream.ended = false) (hcount : written + Connection.lead stage ≤ took.length) :
    Lockstep.GoesOn settings method conn daemon shared missing call took toDaemon written := by
  cases stage with
  | ended outcome =>
    rw [hcall] at houtcome
    cases houtcome
  | running request =>
    have hstep := Call.step_running settings.limits Connection.peer shared (conn.wire, daemon.stream) .exchange request
    rw [← hcall] at hstep
    refine .inr ⟨_, _, _, _, Connection.serves_of_quiet hopen hphase houtcome hsuits hstep, ?_⟩
    rw [List.append_nil]
    exact .exchange hinvocation rfl (fun _ => hended) hcount
  | sending response =>
    obtain ⟨stream', hended', -, hserves⟩ := Connection.serves_of_sending hopen hphase hsuits hcall
    refine .inr ⟨_, _, _, _, hserves, ?_⟩
    rw [List.append_nil]
    exact .exchange hinvocation rfl (fun _ => hended'.trans hended) hcount
  | head =>
    rcases Connection.serves_of_receiving settings shared hopen hphase hsuits hcall Shape.isFed_exchange hlive hended hpending with hstill | ⟨line, rest, rfl, hserves⟩
    · exact .inl hstill
    · refine .inr ⟨_, _, _, _, hserves, ?_⟩
      have hcount' : written + 2 ≤ (took ++ [line]).length := by
        rw [List.length_append]
        exact Nat.succ_le_succ hcount
      unfold Connection.afterLine
      split
      · exact .exchange hinvocation rfl nofun hcount'
      · exact .exchange hinvocation rfl (fun _ => hended) hcount'
      · exact .exchange hinvocation rfl nofun hcount'

theorem Lockstep.goesOn (h : Lockstep daemon call took written) {read : Nat} (hunderway : call.Underway (took ++ toDaemon) read)
    (hphase : conn.phase = .serving daemon) (hopen : conn.IsOpen missing toDaemon.flatten) (hsuits : daemon.call.Suits method)
    (hlive : daemon.stream.cancelled = false) (houtcome : daemon.call.outcome? = none) :
    Lockstep.GoesOn settings method conn daemon shared missing call took toDaemon written := by
  have hpending : ∀ line ∈ toDaemon, IsFullLine line := fun line hline =>
    hunderway.isFullLine line (List.mem_append_right took hline)
  have hplan := hunderway.plan
  cases h with
  | whole htook =>
    obtain ⟨taken, toDaemon', new, daemon', hserves⟩ := Connection.exists_serves settings shared hopen hphase houtcome hsuits hpending
    rw [List.append_assoc, htook, List.append_right_eq_self, List.append_eq_nil_iff] at hplan
    have htaken : taken = [] := (List.append_eq_nil_iff.mp (hserves.lines_eq.symm.trans hplan.1)).1
    refine .inr ⟨taken, toDaemon', new, daemon', hserves, ?_⟩
    rw [htaken, List.append_nil]
    exact .whole htook
  | @tally summary stage left hcall hstage hended hid hrates htook =>
    rcases hstage with rfl | ⟨request, rfl⟩
    · exact goesOn_tally hphase hopen hsuits hlive hpending hcall hended hid hrates htook hplan
    · have hstep := Call.step_running settings.limits Connection.peer shared (conn.wire, daemon.stream) (.tally summary) request
      rw [← hcall] at hstep
      refine .inr ⟨_, _, _, _, Connection.serves_of_quiet hopen hphase houtcome hsuits hstep, ?_⟩
      rw [List.append_nil]
      exact .tally rfl (.inl rfl) hended hid hrates htook
  | exchange hinvocation hcall hended hcount =>
    exact goesOn_exchange hphase hopen hsuits hlive hpending hinvocation hcall houtcome (hended houtcome) hcount

theorem Lockstep.same {written : Nat} (h : Lockstep daemon call took written) {other : Client.OpenCall} (hid : other.id = call.id)
    (hinvocation : other.invocation = call.invocation) (hplan : other.plan = call.plan) : Lockstep daemon other took written := by
  cases h with
  | whole htook => exact .whole (htook.trans hplan.symm)
  | tally hcall hstage hended hid' hrates htook =>
    exact .tally hcall hstage hended (hid ▸ hid') hrates (by rw [hid, htook, hplan])
  | exchange hinvocation' hcall hended hcount => exact .exchange (hinvocation.trans hinvocation') hcall hended hcount

/-! ## The request line -/

/-- The line of a call whose request has no parameters opens that call. -/
theorem opens_of_null (call : Client.OpenCall) (hparams : call.invocation.params = .null) : Opens call.request.line call.request.received :=
  Client.opens_of_writable (hparams ▸ trivial) (hparams ▸ Nat.zero_le 2)

/-- A call with a line that opens nothing has nothing more to write. -/
theorem plan_of_not_opens (hopens : ∀ request, ¬ Opens call.request.line request) : call.plan = [call.request.line] := by
  have hparams : call.invocation.params ≠ .null := fun hnull => hopens _ (opens_of_null call hnull)
  unfold Client.OpenCall.plan
  cases hinvocation : call.invocation with
  | tally requests =>
    rw [hinvocation] at hparams
    exact absurd rfl hparams
  | exchange requests =>
    rw [hinvocation] at hparams
    exact absurd rfl hparams
  | _ => rfl

/-- The call that the line opens is in step. -/
theorem lockstep_opened (settings : Settings) (generatedId : String) (order : MapOrder) (size : Nat) {request : Request} (hopens : Opens call.request.line request)
    (hrates : ∀ requests, call.invocation = .tally requests → ∀ request ∈ requests, HasFiniteRate request.config) :
    Lockstep (.ofRequest settings request generatedId order size) call [call.request.line] 0 := by
  have hreceived (hnull : call.invocation.params = .null) : request = call.request.received :=
    Except.ok.inj (hopens.parsed.symm.trans (opens_of_null call hnull).parsed)
  obtain ⟨id, invocation, correlation, order, stage, items, bytesOut, bytesIn⟩ := call
  cases invocation with
  | tally requests =>
    rw [hreceived rfl]
    exact .tally rfl (.inl rfl) rfl rfl (hrates requests rfl) rfl
  | exchange requests =>
    rw [hreceived rfl]
    exact .exchange rfl rfl (fun _ => rfl) (Nat.le_refl 1)
  | _ => exact .whole rfl

end

namespace Session

/-! ## Where a call stands -/

/-- Where client and daemon stand during a call of the client: the lines that the daemon has taken, those on their way to it, those that the client has read, those on their way to the client, and the log entry of the call. -/
inductive Position (conn : Connection) (call : Client.OpenCall) (took toDaemon read toClient : List (List Char)) : Option CallEvent → Prop where
  | before (hphase : conn.phase = .idle) (htook : took = []) (hread : read = []) (htoClient : toClient = []) (hunderway : call.Underway toDaemon 0) :
      Position conn call took toDaemon read toClient none
  | during {daemon : Connection.OpenCall} {request : Request} (hphase : conn.phase = .serving daemon)
      (hunderway : call.Underway (took ++ toDaemon) read.length) (hitems : AreItems toClient) (hopens : Opens call.request.line request)
      (hmeter : daemon.meter = ⟨⟨callMode request.method request.params, request.method⟩, Utf8.size took.flatten, Utf8.size (read ++ toClient).flatten⟩)
      (hlive : daemon.stream.cancelled = false) (hsuits : daemon.call.Suits request.method)
      (hlockstep : Lockstep daemon call took (read ++ toClient).length) : Position conn call took toDaemon read toClient none
  | after {event? : Option CallEvent} {items : List (List Char)} {last : List Char} (hphase : conn.phase = .idle) (htoDaemon : toDaemon = [])
      (htoClient : toClient = items ++ [last]) (hitems : AreItems items) (hlive : call.result? = none) (hreading : call.stage.IsReading)
      (hawaiting : ∀ left, call.stage = .awaiting left → items = []) (hlast : EndsCalls last (event? ≠ none))
      (hevent : ∀ event, event? = some event → IsEntry event call.request.line (Utf8.size took.flatten) (Utf8.size (read ++ toClient).flatten)) :
      Position conn call took toDaemon read toClient event?
  | returned {event? : Option CallEvent} {result : Except Client.Failure Client.Reply} (hphase : conn.phase = .idle) (htoDaemon : toDaemon = [])
      (htoClient : toClient = []) (hresult : call.result? = some result)
      (hreply : ∀ reply, result = .ok reply → ∃ event, event? = some event ∧ IsEntry event call.request.line reply.bytesOut reply.bytesIn) :
      Position conn call took toDaemon read toClient event?

/-- A session during the call of an errand, with the log at the start of the call. -/
structure Talks (before : List CallEvent) (errand : Errand) (session : Session) (call : Client.OpenCall)
    (took toDaemon read toClient : List (List Char)) (event? : Option CallEvent) : Prop where
  calling : session.client.call = some call
  asks : call.invocation = errand.invocation ∧ call.correlation = errand.correlation ∧ call.order = errand.order
  readable : errand.IsReadable
  carries : session.Carries toDaemon toClient
  bytesOut : call.bytesOut = Utf8.size (took ++ toDaemon).flatten
  bytesIn : call.bytesIn = Utf8.size read.flatten
  log_eq : session.shared.log = before ++ event?.toList
  position : Position session.connection call took toDaemon read toClient event?

/-- A session is in the call of an errand. -/
def IsTalking (before : List CallEvent) (errand : Errand) (session : Session) : Prop :=
  ∃ call took toDaemon read toClient event?, session.Talks before errand call took toDaemon read toClient event?

section

variable {before : List CallEvent} {errand : Errand} {session : Session} {call : Client.OpenCall} {took toDaemon read toClient : List (List Char)}
  {event? : Option CallEvent} {settings : Settings}

/-! ## Steps of the client -/

/-- The session after a step of the client's call. -/
def withCall (session : Session) (result : Client.OpenCall × Wire) : Session :=
  { session with client := { session.client with wire := result.2, call := some result.1 } }

theorem stepClient_of_live (hcalling : session.client.call = some call) (hlive : call.result? = none) :
    session.stepClient = session.withCall (call.step session.client.wire) := by
  have hresult : session.client.result? = none := by rw [Client.result?, hcalling, Option.bind_some, hlive]
  simp only [Session.stepClient, hresult, hcalling, Client.step, withCall]

theorem withCall_self (hcalling : session.client.call = some call) : session.withCall (call, session.client.wire) = session := by
  rw [withCall, ← hcalling]

/-- The client writes a line. -/
theorem Talks.of_write (h : session.Talks before errand call took toDaemon read toClient event?) {line : List Char} {next : Client.Stage}
    (hposition : Position session.connection { call with stage := next, bytesOut := call.bytesOut + Utf8.size line } took (toDaemon ++ [line]) read toClient event?) :
    IsTalking before errand (session.withCall (call.write session.client.wire line next)) := by
  rw [Client.OpenCall.write_of_room h.carries.client.room]
  refine ⟨_, took, toDaemon ++ [line], read, toClient, event?, rfl, h.asks, h.readable, ⟨?_, h.carries.client.same rfl rfl rfl⟩, ?_, h.bytesIn, h.log_eq, hposition⟩
  · change session.connection.IsOpen (session.client.wire.outbox ++ Utf8.encode line) (toDaemon ++ [line]).flatten
    rw [List.flatten_concat]
    exact ⟨h.carries.daemon.toIsOpen.append line, h.carries.daemon.live⟩
  · rw [← List.append_assoc, List.flatten_concat, Utf8.size_append, ← h.bytesOut]

/-- The client reads the next line, or waits for it. -/
theorem Talks.of_read (h : session.Talks before errand call took toDaemon read toClient event?) (hfull : ∀ line ∈ toClient, IsFullLine line)
    (hposition : ∀ line rest, toClient = line :: rest →
      ∃ call', ({ call with bytesIn := call.bytesIn + Utf8.size line } : Client.OpenCall).takeLine line = call' ∧
        call'.bytesOut = call.bytesOut ∧ call'.bytesIn = call.bytesIn + Utf8.size line ∧
        call'.invocation = call.invocation ∧ call'.correlation = call.correlation ∧ call'.order = call.order ∧
        Position session.connection call' took toDaemon (read ++ [line]) rest event?) :
    IsTalking before errand (session.withCall (call.read session.client.wire)) := by
  have hstill : IsTalking before errand (session.withCall (call, session.client.wire)) := by
    rw [withCall_self h.calling]
    exact ⟨call, took, toDaemon, read, toClient, event?, h⟩
  have hclient := h.carries.client
  cases toClient with
  | nil =>
    rw [Client.OpenCall.read_of_nil hclient]
    exact hstill
  | cons line rest =>
    rcases Client.OpenCall.read_of_line hclient (hfull line List.mem_cons_self) with hread | ⟨inbox, hread, hopen⟩
    · rw [hread]
      exact hstill
    · obtain ⟨call', htake, hout, hin, hinvocation, hcorrelation, horder, hnext⟩ := hposition line rest rfl
      rw [hread, htake]
      refine ⟨call', took, toDaemon, read ++ [line], rest, event?, rfl, ⟨hinvocation.trans h.asks.1, hcorrelation.trans h.asks.2.1, horder.trans h.asks.2.2⟩, h.readable,
        ⟨h.carries.daemon.same rfl rfl rfl rfl, hopen⟩, hout.trans h.bytesOut, ?_, h.log_eq, hnext⟩
      rw [hin, h.bytesIn, List.flatten_concat, Utf8.size_append]

theorem isFullLine_of_areItems {items : List (List Char)} (h : AreItems items) : ∀ line ∈ items, IsFullLine line := by
  intro line hline
  obtain ⟨id, response, rfl⟩ := h line hline
  exact Connection.isFullLine_frame _

/-- The client reads a line while the daemon's call is open. -/
theorem Talks.stepClient_during (h : session.Talks before errand call took toDaemon read toClient none) {daemon : Connection.OpenCall} {request : Request}
    (hphase : session.connection.phase = .serving daemon) (hunderway : call.Underway (took ++ toDaemon) read.length) (hitems : AreItems toClient)
    (hopens : Opens call.request.line request)
    (hmeter : daemon.meter = ⟨⟨callMode request.method request.params, request.method⟩, Utf8.size took.flatten, Utf8.size (read ++ toClient).flatten⟩)
    (hlive : daemon.stream.cancelled = false) (hsuits : daemon.call.Suits request.method) (hlockstep : Lockstep daemon call took (read ++ toClient).length) :
    IsTalking before errand (session.withCall (call.step session.client.wire)) := by
  rcases hunderway.step_cases session.client.wire with ⟨hreading, hstep⟩ | ⟨line, next, hstep, hnext⟩
  · rw [hstep]
    refine h.of_read (isFullLine_of_areItems hitems) fun line rest hlines => ?_
    subst hlines
    obtain ⟨⟨id, response, rfl⟩, hrest⟩ := List.forall_mem_cons.mp hitems
    obtain ⟨items, htake⟩ := Client.OpenCall.takeLine_itemLine { call with bytesIn := call.bytesIn + Utf8.size (itemLine id response) } hreading id response
    refine ⟨_, htake, rfl, rfl, rfl, rfl, rfl, ?_⟩
    have hsame : read ++ itemLine id response :: rest = read ++ [itemLine id response] ++ rest := List.append_cons read _ rest
    rw [hsame] at hmeter hlockstep
    refine .during hphase ?_ hrest hopens hmeter hlive hsuits ?_
    · rw [List.length_append]
      exact hunderway.afterTaking hreading items _
    · exact hlockstep.same rfl rfl rfl
  · rw [hstep]
    refine h.of_write (.during hphase ?_ hitems hopens hmeter hlive hsuits (hlockstep.same rfl rfl rfl))
    rw [← List.append_assoc]
    exact hnext _

theorem Talks.stepClient_after (h : session.Talks before errand call took toDaemon read toClient event?) {items : List (List Char)} {last : List Char}
    (hphase : session.connection.phase = .idle) (htoDaemon : toDaemon = []) (htoClient : toClient = items ++ [last]) (hitems : AreItems items)
    (hlive : call.result? = none) (hreading : call.stage.IsReading) (hawaiting : ∀ left, call.stage = .awaiting left → items = [])
    (hlast : EndsCalls last (event? ≠ none))
    (hevent : ∀ event, event? = some event → IsEntry event call.request.line (Utf8.size took.flatten) (Utf8.size (read ++ toClient).flatten)) :
    IsTalking before errand (session.withCall (call.step session.client.wire)) := by
  have hfull : ∀ line ∈ toClient, IsFullLine line := by
    rw [htoClient]
    exact List.forall_mem_append.mpr ⟨isFullLine_of_areItems hitems, List.forall_mem_singleton.mpr hlast.full⟩
  rw [Client.OpenCall.step_of_isReading hreading]
  refine h.of_read hfull fun line rest hlines => ?_
  rw [hlines] at htoClient
  cases items with
  | nil =>
    obtain ⟨rfl, rfl⟩ := List.cons.inj htoClient
    obtain ⟨result, htake, hreply⟩ := hlast.ends { call with bytesIn := call.bytesIn + Utf8.size line }
    refine ⟨_, htake, rfl, rfl, rfl, rfl, rfl, .returned hphase htoDaemon rfl rfl fun reply hresult => ?_⟩
    obtain ⟨hlogged, hout, hin⟩ := hreply reply hresult
    obtain ⟨event, rfl⟩ := Option.ne_none_iff_exists'.mp hlogged
    refine ⟨event, rfl, ?_⟩
    have hentry := hevent event rfl
    have hbytesOut := h.bytesOut
    rw [htoDaemon, List.append_nil] at hbytesOut
    rw [hlines, List.flatten_concat, Utf8.size_append, ← h.bytesIn, ← hbytesOut] at hentry
    rw [hout, hin]
    exact hentry
  | cons item items =>
    rw [List.cons_append] at htoClient
    obtain ⟨rfl, rfl⟩ := List.cons.inj htoClient
    obtain ⟨⟨id, response, rfl⟩, hrest⟩ := List.forall_mem_cons.mp hitems
    have hnever : ∀ left, call.stage ≠ .awaiting left := fun left hstage => List.cons_ne_nil _ _ (hawaiting left hstage)
    have hstage : Client.OpenCall.afterTaking call.stage = call.stage := by
      cases hstage : call.stage with
      | awaiting left => exact absurd hstage (hnever left)
      | _ => rfl
    obtain ⟨kept, htake⟩ := Client.OpenCall.takeLine_itemLine { call with bytesIn := call.bytesIn + Utf8.size (itemLine id response) } hreading id response
    refine ⟨_, htake, rfl, rfl, rfl, rfl, rfl, ?_⟩
    dsimp only
    rw [hstage]
    refine .after hphase htoDaemon rfl hrest hlive hreading (fun left hleft => absurd hleft (hnever left)) hlast ?_
    rw [hlines, List.append_cons read _ (items ++ [last])] at hevent
    exact hevent

theorem Talks.stepClient (h : session.Talks before errand call took toDaemon read toClient event?) (hlive : call.result? = none) :
    IsTalking before errand session.stepClient := by
  rw [stepClient_of_live h.calling hlive]
  have hposition := h.position
  cases hposition with
  | before hphase htook hread htoClient hunderway =>
    rcases hunderway.step_cases session.client.wire with ⟨hreading, hstep⟩ | ⟨line, next, hstep, hnext⟩
    · rw [hstep]
      exact h.of_read (by simp [htoClient]) (by simp [htoClient])
    · rw [hstep]
      exact h.of_write (.before hphase htook hread htoClient (hnext _))
  | during hphase hunderway hitems hopens hmeter hlive hsuits hlockstep =>
    exact h.stepClient_during hphase hunderway hitems hopens hmeter hlive hsuits hlockstep
  | after hphase htoDaemon htoClient hitems hlive hreading hawaiting hlast hevent =>
    exact h.stepClient_after hphase htoDaemon htoClient hitems hlive hreading hawaiting hlast hevent
  | returned hphase htoDaemon htoClient hresult =>
    rw [hlive] at hresult
    cases hresult

/-! ## Steps of the daemon -/

/-- The session after an event of the connection. -/
def withConnection (session : Session) (result : Connection × Shared) : Session := { session with connection := result.1, shared := result.2 }

/-- A step of the connection that leaves these lines on their way. -/
theorem Talks.of_connection (h : session.Talks before errand call took toDaemon read toClient none) {result : Connection × Shared}
    {taken toDaemon' written : List (List Char)} (hlines : toDaemon = taken ++ toDaemon')
    (hopen : result.1.IsOpen session.client.wire.outbox toDaemon'.flatten)
    (houtbox : result.1.wire.outbox = session.connection.wire.outbox ++ Utf8.encode written.flatten)
    (hlog : result.2.log = session.shared.log ++ event?.toList)
    (hposition : Position result.1 call (took ++ taken) toDaemon' read (toClient ++ written) event?) :
    IsTalking before errand (session.withConnection result) := by
  refine ⟨call, took ++ taken, toDaemon', read, toClient ++ written, event?, h.calling, h.asks, h.readable, ⟨hopen, ?_⟩, ?_, h.bytesIn, ?_, hposition⟩
  · change session.client.wire.IsOpen result.1.wire.outbox (toClient ++ written).flatten
    rw [houtbox, List.flatten_append]
    exact h.carries.client.append _
  · rw [h.bytesOut, hlines, List.append_assoc]
  · have hbefore := h.log_eq
    rw [Option.toList_none, List.append_nil] at hbefore
    change result.2.log = _
    rw [hlog, hbefore]

/-- The connection takes the request line, or waits for it. -/
theorem Talks.stepDaemon_before (h : session.Talks before errand call took toDaemon read toClient none) (hphase : session.connection.phase = .idle)
    (htook : took = []) (hread : read = []) (htoClient : toClient = []) (hunderway : call.Underway toDaemon 0) :
    IsTalking before errand (session.withConnection (session.connection.step settings session.shared)) := by
  subst htook hread htoClient
  have hstill : IsTalking before errand (session.withConnection (session.connection, session.shared)) := ⟨_, _, _, _, _, _, h⟩
  have hdaemon := h.carries.daemon
  have hplan := hunderway.plan
  cases toDaemon with
  | nil =>
    rw [Connection.IsOpen.step_idle_nil settings session.shared hdaemon hphase]
    exact hstill
  | cons line rest =>
    obtain ⟨rfl, hafter⟩ := List.cons.inj hplan
    have hline : IsFullLine call.request.line := hunderway.isFullLine _ List.mem_cons_self
    rcases Connection.IsOpen.step_idle settings session.shared hdaemon hphase hline with ⟨hstep, -⟩ | ⟨inbox, hstep, hopen, -⟩
    · rw [hstep]
      exact hstill
    · rw [hstep]
      rcases Connection.takeLine_cases hline.visible with ⟨response, hopens, htake, hends⟩ | ⟨request, hopens, htake⟩
      · rw [htake, Connection.reject_of_room hopen.room]
        have hsent : rest = [] ∧ call.unsent = [] := by
          have hwhole := plan_of_not_opens hopens
          rw [Client.OpenCall.plan] at hwhole
          rw [(List.cons.inj hwhole).2] at hafter
          exact List.append_eq_nil_iff.mp hafter
        obtain ⟨hreading, hawaiting⟩ := hunderway.isReading hsent.2
        have hends' : EndsCalls response.line ((none : Option CallEvent) ≠ none) := ⟨hends.full, fun other => by
          obtain ⟨result, htake, hreply⟩ := hends.ends other
          exact ⟨result, htake, fun reply hresult => (hreply reply hresult).1.elim⟩⟩
        have htoClient : ([] : List (List Char)) ++ [response.line] = [] ++ [response.line] := rfl
        refine h.of_connection (List.singleton_append).symm (hopen.same rfl rfl rfl rfl) ?_ (List.append_nil _).symm
          (.after rfl hsent.1 htoClient (List.forall_mem_nil _) hunderway.live hreading (fun left hstage => absurd hstage (hawaiting left)) hends' nofun)
        rw [List.flatten_singleton]
      · rw [htake]
        have hrates : ∀ requests, call.invocation = .tally requests → ∀ request ∈ requests, HasFiniteRate request.config :=
          fun requests hinvocation => h.readable requests (h.asks.1.symm.trans hinvocation)
        have hnothing : ([] : List (List Char)) ++ [] = [] := rfl
        refine h.of_connection (List.singleton_append).symm (hopen.same rfl rfl rfl rfl) (by simp [Connection.openCall]) (List.append_nil _).symm
          (.during rfl hunderway (hnothing ▸ List.forall_mem_nil _) hopens ?_ rfl (openCall_suits settings request.method request.params).1
            (lockstep_opened settings _ _ _ hopens hrates))
        rw [List.nil_append, List.flatten_singleton]
        rfl

/-- The daemon's call goes on, or ends with its response and its entry. -/
theorem Talks.stepDaemon_during (h : session.Talks before errand call took toDaemon read toClient none) {daemon : Connection.OpenCall} {request : Request}
    (hphase : session.connection.phase = .serving daemon) (hunderway : call.Underway (took ++ toDaemon) read.length) (hitems : AreItems toClient)
    (hopens : Opens call.request.line request)
    (hmeter : daemon.meter = ⟨⟨callMode request.method request.params, request.method⟩, Utf8.size took.flatten, Utf8.size (read ++ toClient).flatten⟩)
    (hlive : daemon.stream.cancelled = false) (hsuits : daemon.call.Suits request.method) (hlockstep : Lockstep daemon call took (read ++ toClient).length) :
    IsTalking before errand (session.withConnection (session.connection.step settings session.shared)) := by
  cases houtcome : daemon.call.outcome? with
  | none =>
    rcases hlockstep.goesOn hunderway hphase h.carries.daemon hsuits hlive houtcome with hstill | ⟨taken, toDaemon', new, daemon', hserves, hlockstep'⟩
    · rw [hstill]
      exact ⟨_, _, _, _, _, _, h⟩
    · rw [← List.length_append, List.append_assoc] at hlockstep'
      refine h.of_connection hserves.lines_eq hserves.opened hserves.outbox_eq (hserves.log_eq.trans (List.append_nil _).symm)
        (.during hserves.phase ?_ (List.forall_mem_append.mpr ⟨hitems, hserves.items⟩) hopens ?_ (hserves.cancelled_eq.trans hlive) hserves.suits hlockstep')
      · rw [List.append_assoc, ← hserves.lines_eq]
        exact hunderway
      · rw [hserves.meter, hmeter]
        simp only [List.flatten_append, Utf8.size_append, Nat.add_assoc]
  | some outcome =>
    obtain ⟨event, hidle, hopen, houtbox, hlog, hlabels, hin, hout⟩ := Connection.step_closing h.carries.daemon hphase houtcome
    obtain ⟨htoDaemon, hreading, hawaiting⟩ := hlockstep.over houtcome hunderway (by rw [List.length_append]; exact Nat.le_add_right _ _)
    have hlog' : (session.connection.step settings session.shared).2.log = session.shared.log ++ (some event).toList := hlog
    have hmeters := hmeter
    simp only [Connection.OpenCall.meter, Connection.Meter.mk.injEq] at hmeters
    have hends : EndsCalls (daemon.response outcome).line (some event ≠ none) := ⟨(endsCalls_response daemon outcome).full, fun other => by
      obtain ⟨result, htake, hreply⟩ := (endsCalls_response daemon outcome).ends other
      exact ⟨result, htake, fun reply hresult => ⟨Option.some_ne_none event, (hreply reply hresult).2⟩⟩⟩
    have htoClient : toClient ++ [(daemon.response outcome).line] = toClient ++ [(daemon.response outcome).line] := rfl
    refine h.of_connection (List.nil_append toDaemon).symm hopen ?_ hlog'
      (.after hidle htoDaemon htoClient hitems hunderway.live hreading (fun left hstage => ?_) hends fun other hother => ?_)
    · rw [houtbox, List.flatten_singleton]
    · have hlength := hawaiting left hstage
      rw [List.length_append] at hlength
      exact List.length_eq_zero_iff.mp (by omega)
    · obtain rfl := Option.some.inj hother
      refine ⟨request, hopens, hlabels.trans hmeters.1, ?_, ?_⟩
      · rw [hin, hmeters.2.1, List.append_nil]
      · rw [hout, hmeters.2.2, ← List.append_assoc, List.flatten_concat, Utf8.size_append]

theorem Talks.stepDaemon (h : session.Talks before errand call took toDaemon read toClient event?) :
    IsTalking before errand (session.applyConnection settings .step) := by
  change IsTalking before errand (session.withConnection (session.connection.step settings session.shared))
  have hover (hphase : session.connection.phase = .idle) (htoDaemon : toDaemon = []) :
      IsTalking before errand (session.withConnection (session.connection.step settings session.shared)) := by
    subst htoDaemon
    rw [Connection.IsOpen.step_idle_nil settings session.shared h.carries.daemon hphase]
    exact ⟨_, _, _, _, _, _, h⟩
  have hposition := h.position
  cases hposition with
  | before hphase htook hread htoClient hunderway => exact h.stepDaemon_before hphase htook hread htoClient hunderway
  | during hphase hunderway hitems hopens hmeter hlive hsuits hlockstep =>
    exact h.stepDaemon_during hphase hunderway hitems hopens hmeter hlive hsuits hlockstep
  | after hphase htoDaemon => exact hover hphase htoDaemon
  | returned hphase htoDaemon => exact hover hphase htoDaemon

/-! ## Other events -/

theorem Talks.watch (h : session.Talks before errand call took toDaemon read toClient event?) (settings : Settings) :
    IsTalking before errand (session.applyConnection settings .watch) := by
  change IsTalking before errand (session.withConnection (session.connection.watch, session.shared))
  rcases Connection.watch_of_open h.carries.daemon.inputOpen with hwatch | ⟨daemon, hserving, hwatch⟩
  · rw [hwatch]
    exact ⟨_, _, _, _, _, _, h⟩
  · rw [hwatch]
    refine ⟨call, took, toDaemon, read, toClient, event?, h.calling, h.asks, h.readable, ⟨h.carries.daemon.same rfl rfl rfl rfl, h.carries.client⟩,
      h.bytesOut, h.bytesIn, h.log_eq, ?_⟩
    have hposition := h.position
    cases hposition with
    | during hphase hunderway hitems hopens hmeter hlive hsuits hlockstep =>
      obtain rfl := Connection.Phase.serving.inj (hserving.symm.trans hphase)
      refine .during rfl hunderway hitems hopens hmeter hlive hsuits ?_
      cases hlockstep with
      | whole htook => exact .whole htook
      | tally hcall hstage hended hid hrates htook => exact .tally hcall hstage hended hid hrates htook
      | exchange hinvocation hcall hended hcount => exact .exchange hinvocation hcall hended hcount
    | before hphase | after hphase | returned hphase =>
      rw [hserving] at hphase
      cases hphase

/-- A position depends only on the phase of the connection. -/
theorem Position.same {conn other : Connection} (h : Position conn call took toDaemon read toClient event?) (hphase : other.phase = conn.phase) :
    Position other call took toDaemon read toClient event? := by
  cases h with
  | before hidle htook hread htoClient hunderway => exact .before (hphase.trans hidle) htook hread htoClient hunderway
  | during hserving hunderway hitems hopens hmeter hlive hsuits hlockstep =>
    exact .during (hphase.trans hserving) hunderway hitems hopens hmeter hlive hsuits hlockstep
  | after hidle htoDaemon htoClient hitems hlive hreading hawaiting hlast hevent =>
    exact .after (hphase.trans hidle) htoDaemon htoClient hitems hlive hreading hawaiting hlast hevent
  | returned hidle htoDaemon htoClient hresult hreply => exact .returned (hphase.trans hidle) htoDaemon htoClient hresult hreply

theorem Talks.carryToDaemon (h : session.Talks before errand call took toDaemon read toClient event?) (count : Nat) :
    IsTalking before errand (session.carryToDaemon count) :=
  ⟨call, took, toDaemon, read, toClient, event?, h.calling, h.asks, h.readable, h.carries.carryToDaemon count, h.bytesOut, h.bytesIn, h.log_eq,
    h.position.same rfl⟩

theorem Talks.carryToClient (h : session.Talks before errand call took toDaemon read toClient event?) (count : Nat) :
    IsTalking before errand (session.carryToClient count) :=
  ⟨call, took, toDaemon, read, toClient, event?, h.calling, h.asks, h.readable, h.carries.carryToClient count, h.bytesOut, h.bytesIn, h.log_eq,
    h.position.same rfl⟩

end

/-! ## Whole sessions -/

/-- A session between two calls, with the errands of the whole session and the log at its start. -/
structure Pauses (before : List CallEvent) (errands : List Errand) (session : Session) : Prop where
  reported : ∃ done log, errands = done ++ session.errands ∧ session.shared.log = before ++ log ∧ ReportedAll done session.results log
  free : session.client.call = none
  phase : session.connection.phase = .idle
  carries : session.Carries [] []

/-- The log of a session has the entries of the calls that have returned, and of the present one. -/
def Logs (before : List CallEvent) (errands : List Errand) (session : Session) : Prop :=
  session.Pauses before errands ∨
    ∃ done errand log, errands = done ++ errand :: session.errands ∧ ReportedAll done session.results log ∧ session.IsTalking (before ++ log) errand

section

variable {before : List CallEvent} {errands : List Errand} {session : Session} {settings : Settings}

/-- A call that has returned leaves its entry in the log and nothing on its way. -/
theorem Talks.note {log : List CallEvent} {errand : Errand} {call : Client.OpenCall} {took toDaemon read toClient : List (List Char)}
    {event? : Option CallEvent} (h : session.Talks (before ++ log) errand call took toDaemon read toClient event?) {done : List Errand}
    (herrands : errands = done ++ errand :: session.errands) (hreported : ReportedAll done session.results log)
    {result : Except Client.Failure Client.Reply} (hresult : call.result? = some result) : session.stepClient.Pauses before errands := by
  have hclient : session.client.result? = some result := by rw [Client.result?, h.calling, Option.bind_some, hresult]
  have hnext : session.stepClient =
      { session with client := { session.client with call := none }, results := session.results ++ [result] } := by
    simp only [Session.stepClient, hclient]
  have hcarries := h.carries
  rw [hnext]
  cases h.position with
  | returned hphase htoDaemon htoClient hresult' hreply =>
    obtain rfl := Option.some.inj (hresult.symm.trans hresult')
    subst htoDaemon htoClient
    have hrequest : errand.requestLine call.id = call.request.line := by
      rw [Errand.requestLine, ← h.asks.1, ← h.asks.2.1, ← h.asks.2.2]
      rfl
    have hlast : Reported errand result event? := by
      intro reply hok
      obtain ⟨event, hevent, hentry⟩ := hreply reply hok
      exact ⟨event, call.id, hevent, hrequest ▸ hentry⟩
    refine ⟨⟨done ++ [errand], log ++ event?.toList, ?_, ?_, hreported.snoc hlast⟩, rfl, hphase, hcarries.daemon, hcarries.client⟩
    · rw [herrands, List.append_assoc, List.singleton_append]
    · rw [← List.append_assoc]
      exact h.log_eq
  | before _ _ _ _ hunderway =>
    rw [hunderway.live] at hresult
    cases hresult
  | during _ hunderway =>
    rw [hunderway.live] at hresult
    cases hresult
  | after _ _ _ _ hlive =>
    rw [hlive] at hresult
    cases hresult

theorem Pauses.stepClient (h : session.Pauses before errands) (hreadable : ∀ errand ∈ errands, errand.IsReadable) :
    session.stepClient.Logs before errands := by
  obtain ⟨done, log, herrands, hlog, hreported⟩ := h.reported
  have hresult : session.client.result? = none := by
    rw [Client.result?, h.free]
    rfl
  cases hleft : session.errands with
  | nil =>
    have hstill : session.stepClient = session := by simp only [Session.stepClient, hresult, h.free, hleft]
    rw [hstill]
    exact .inl h
  | cons errand rest =>
    have hnext : session.stepClient =
        { session with client := session.client.begin errand.invocation errand.correlation errand.order, errands := rest } := by
      simp only [Session.stepClient, hresult, h.free, hleft]
    rw [hleft] at herrands
    have hmember : errand ∈ errands := herrands ▸ List.mem_append_right done List.mem_cons_self
    rw [hnext]
    refine .inr ⟨done, errand, log, herrands, hreported, _, [], [], [], [], none, rfl, ⟨rfl, rfl, rfl⟩, hreadable errand hmember,
      ⟨h.carries.daemon, h.carries.client⟩, rfl, rfl, ?_, .before h.phase rfl rfl rfl (Client.OpenCall.underway_start _ _ _ _)⟩
    rw [Option.toList_none, List.append_nil]
    exact hlog

theorem Pauses.apply (h : session.Pauses before errands) (hreadable : ∀ errand ∈ errands, errand.IsReadable) (event : SessionEvent) :
    (session.apply settings event).Logs before errands := by
  cases event with
  | client => exact h.stepClient hreadable
  | daemon =>
    have hstill : session.applyConnection settings .step = session := by
      simp only [applyConnection, Connection.apply, Connection.IsOpen.step_idle_nil settings session.shared h.carries.daemon h.phase]
    rw [Session.apply, hstill]
    exact .inl h
  | watch =>
    have hwatch : session.connection.watch = session.connection := by rw [Connection.watch, h.phase]
    have hstill : session.applyConnection settings .watch = session := by simp only [applyConnection, Connection.apply, hwatch]
    rw [Session.apply, hstill]
    exact .inl h
  | toDaemon count => exact .inl ⟨h.reported, h.free, h.phase, h.carries.carryToDaemon count⟩
  | toClient count => exact .inl ⟨h.reported, h.free, h.phase, h.carries.carryToClient count⟩

theorem Logs.apply (h : session.Logs before errands) (hreadable : ∀ errand ∈ errands, errand.IsReadable) (event : SessionEvent) :
    (session.apply settings event).Logs before errands := by
  rcases h with h | ⟨done, errand, log, herrands, hreported, call, took, toDaemon, read, toClient, event?, h⟩
  · exact h.apply hreadable event
  · cases event with
    | client =>
      cases hresult : call.result? with
      | some result => exact .inl (h.note herrands hreported hresult)
      | none =>
        have hnext := h.stepClient hresult
        rw [stepClient_of_live h.calling hresult] at hnext
        rw [Session.apply, stepClient_of_live h.calling hresult]
        exact .inr ⟨done, errand, log, herrands, hreported, hnext⟩
    | daemon => exact .inr ⟨done, errand, log, herrands, hreported, h.stepDaemon⟩
    | watch => exact .inr ⟨done, errand, log, herrands, hreported, h.watch settings⟩
    | toDaemon count => exact .inr ⟨done, errand, log, herrands, hreported, h.carryToDaemon count⟩
    | toClient count => exact .inr ⟨done, errand, log, herrands, hreported, h.carryToClient count⟩

theorem Logs.applyAll (h : session.Logs before errands) (hreadable : ∀ errand ∈ errands, errand.IsReadable) (events : List SessionEvent) :
    (session.applyAll settings events).Logs before errands := by
  induction events generalizing session with
  | nil => exact h
  | cons event events ih => exact ih (h.apply hreadable event)

end

/-- The counts of bytes leave nothing out and take nothing twice. All that a connection reads and writes is divided among its passages; the log entry of a call has the bytes of the lines that were read and of those that were written for it, and the rest is that of the open call and of the lines that opened none. When calls of a client return, the bytes of their replies are those of the log entries. -/
theorem bytes_agree (settings : Settings) (shared : Shared) (ids : Nat → String) (orders : Nat → MapOrder) :
    (∀ (text : List Char) (events : List ConnectionEvent) (missing : List UInt8),
      Connection.BringsAll (Utf8.encode text) events missing →
        let result := Connection.applyAll settings { ids, orders } shared events
        ∃ entries taken frames rest, Connection.Balances ids text shared.log result.1 result.2.log entries taken frames rest ∧
          (result.1.isClosed = true → .shutdown ∉ events → rest = [])) ∧
      ∀ errands : List Errand, (∀ errand ∈ errands, errand.IsReadable) → ∀ events : List SessionEvent,
        let session := ({ connection := { ids, orders }, shared, errands } : Session).applyAll settings events
        ∃ log last, session.shared.log = shared.log ++ log ++ Option.toList last ∧ (session.client.call = none → last = none) ∧
          ReportedAll (errands.take session.results.length) session.results log := by
  refine ⟨fun text events missing hevents => Connection.exists_balances settings shared ids orders text hevents, ?_⟩
  intro errands hreadable events session
  have hstart : ({ connection := { ids, orders }, shared, errands } : Session).Logs shared.log errands :=
    .inl ⟨⟨[], [], rfl, (List.append_nil _).symm, .nil⟩, rfl, rfl, ⟨⟨⟨rfl, nofun⟩, rfl, rfl⟩, rfl⟩, ⟨⟨rfl, nofun⟩, rfl, rfl⟩⟩
  have hsession : session.Logs shared.log errands := hstart.applyAll hreadable events
  rcases hsession with h | ⟨done, errand, log, herrands, hreported, call, took, toDaemon, read, toClient, event?, h⟩
  · obtain ⟨done, log, herrands, hlog, hreported⟩ := h.reported
    refine ⟨log, none, hlog.trans (List.append_nil _).symm, fun _ => rfl, ?_⟩
    rw [herrands, List.take_left' hreported.length_eq.symm]
    exact hreported
  · refine ⟨log, event?, h.log_eq, fun hnone => ?_, ?_⟩
    · rw [h.calling] at hnone
      cases hnone
    · rw [herrands, List.take_left' hreported.length_eq.symm]
      exact hreported

/-- A blank line and one that is rejected, and a call of a client that returns. -/
theorem bytes_agree_rejection_ping :
    (∃ entries taken frames rest, Connection.Balances toString ['\n', 'x', '\n'] []
      (Connection.applyAll { limits := .unbounded } { ids := toString } { draws := .cycle [] }
        [.deliver (Utf8.encode ['\n', 'x', '\n']), .step, .step, .hangUp, .step]).1
      (Connection.applyAll { limits := .unbounded } { ids := toString } { draws := .cycle [] }
        [.deliver (Utf8.encode ['\n', 'x', '\n']), .step, .step, .hangUp, .step]).2.log entries taken frames rest) ∧
      let session := ({ connection := { ids := toString }, shared := { draws := .cycle [] }, errands := [{ invocation := .ping }] } : Session).applyAll
        { limits := .unbounded } [.client, .client, .toDaemon 100, .daemon, .daemon, .toClient 200, .client, .client]
      ∃ reply event, session.results = [.ok reply] ∧ session.shared.log = [event] ∧ reply.bytesOut = event.bytesIn ∧ reply.bytesIn = event.bytesOut := by
  have hboth := bytes_agree { limits := .unbounded } { draws := .cycle [] } toString fun _ => .listed
  have hevents : Connection.BringsAll (Utf8.encode ['\n', 'x', '\n'])
      [.deliver (Utf8.encode ['\n', 'x', '\n']), .step, .step, .hangUp, .step] [] :=
    .deliver (.cons (.step []) (.cons (.step []) (.cons .hangUp (.cons (.step []) (.nil [])))))
  refine ⟨?_, ?_⟩
  · obtain ⟨entries, taken, frames, rest, hbalances, -⟩ := hboth.1 _ _ _ hevents
    exact ⟨entries, taken, frames, rest, hbalances⟩
  · have hreadable : ∀ errand ∈ [({ invocation := .ping } : Errand)], errand.IsReadable :=
      List.forall_mem_singleton.mpr fun requests hrequests => by cases hrequests
    intro session
    obtain ⟨log, last, hlog, hlast, hreported⟩ :=
      hboth.2 _ hreadable [.client, .client, .toDaemon 100, .daemon, .daemon, .toClient 200, .client, .client]
    have hrun : session.results.map Except.isOk = [true] ∧ session.client.call.isNone = true := by decide +kernel
    obtain ⟨result, hresults, hok⟩ := List.map_eq_singleton_iff.mp hrun.1
    obtain ⟨reply, rfl⟩ : ∃ reply, result = .ok reply := by
      cases result with
      | error => cases hok
      | ok reply => exact ⟨reply, rfl⟩
    obtain rfl : last = none := hlast (Option.isNone_iff_eq_none.mp hrun.2)
    change ReportedAll (List.take session.results.length _) session.results log at hreported
    rw [hresults] at hreported
    cases hreported with
    | cons event? hfirst hrest =>
      cases hrest
      obtain ⟨event, _, rfl, _, -, -, hbytesIn, hbytesOut⟩ := hfirst reply rfl
      exact ⟨reply, event, hresults, hlog, hbytesIn.symm, hbytesOut.symm⟩

end Session

end LoadGenerator
