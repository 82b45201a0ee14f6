import LoadGenerator.Proofs.Connection.Steps
import LoadGenerator.Proofs.Message.Lines
import LoadGenerator.Proofs.Message.Work
import LoadGenerator.Proofs.Service.Prospects

/-!
# The course of a call on the daemon's side

Given a request line and the stream that belongs to it, what a connection does until it is between calls again is settled: which lines it takes, which lines it writes, and which draws it leaves. Every step of the connection goes along this course, or waits for a line that has not arrived.
-/

namespace LoadGenerator.Connection

open Message Service

/-! ## Streams -/

/-- The lines of a stream of requests, up to its end. -/
def requestLines (id : Option RequestId) (requests : List WorkRequest) : List (List Char) := streamLines id (requests.map WorkRequest.codec.toJson)

/-- The line of a response to one request. -/
def itemLine (id : Option RequestId) (response : WorkResponse) : List Char := (Frame.item id (WorkResponse.codec.toJson response)).line

@[simp] theorem requestLines_nil (id : Option RequestId) : requestLines id [] = [(Frame.finish id).line] := rfl

@[simp] theorem requestLines_cons (id : Option RequestId) (request : WorkRequest) (rest : List WorkRequest) :
    requestLines id (request :: rest) = (Frame.item id (WorkRequest.codec.toJson request)).line :: requestLines id rest := rfl

@[simp] theorem length_requestLines (id : Option RequestId) (requests : List WorkRequest) :
    (requestLines id requests).length = requests.length + 1 := by
  rw [requestLines, streamLines, List.length_append, List.length_map, List.length_map, List.length_singleton]

theorem isFullLine_frame (frame : Frame) : IsFullLine frame.line := isFullLine_lineOf Frame.record frame

theorem requestOf_item_of_request (id : Option RequestId) {request : WorkRequest} (h : HasFiniteRate request.config) :
    requestOf id (Frame.item id (WorkRequest.codec.toJson request)).line = .ok (some request.received) := by
  have hdepth : (WorkRequest.codec.toJson request).depth < JsonReader.depthLimit := lt_of_le_of_lt (WorkRequest.depth_toJson h) (by decide)
  rw [requestOf_item_of_shallow id (WorkRequest.isWritable_toJson h) hdepth, WorkRequest.ofJson_reread h]

theorem afterLine_item (stream : CallStream) {request : WorkRequest} (h : HasFiniteRate request.config) :
    ∃ bytesIn, afterLine stream (Frame.item stream.id (WorkRequest.codec.toJson request)).line =
      (.ok (some request.received), { stream with bytesIn }) := by
  rw [afterLine, requestOf_item_of_request _ h]
  exact ⟨_, rfl⟩

theorem afterLine_finish (stream : CallStream) :
    ∃ bytesIn, afterLine stream (Frame.finish stream.id).line = (.ok none, { stream with bytesIn, ended := true }) := by
  rw [afterLine, requestOf_finish]
  exact ⟨_, rfl⟩

/-! ## Open calls -/

namespace OpenCall

/-- What is to come of the call, given the requests that the client is still to send. -/
def prospect (settings : Settings) (draws : Load.Draws) (requests : List WorkRequest) (call : OpenCall) : Prospect :=
  call.call.prospect settings.limits draws (requests.map WorkRequest.received)

/-- The lines that the call will write, the last one its response. -/
def toWrite (settings : Settings) (draws : Load.Draws) (requests : List WorkRequest) (call : OpenCall) : List (List Char) :=
  (call.prospect settings draws requests).responses.map (itemLine call.stream.id) ++
    [(call.response (call.prospect settings draws requests).outcome).line]

/-- The lines that the call will take, with the requests in them. -/
inductive Takes (call : OpenCall) : List WorkRequest → List (List Char) → Prop where
  | stream {requests : List WorkRequest} (hfed : call.call.shape.IsFed) (hopen : call.call.outcome? = none)
      (hended : call.stream.ended = false) (hrates : ∀ request ∈ requests, HasFiniteRate request.config) :
      Takes call requests (requestLines call.stream.id requests)
  | nothing (h : call.call.outcome? = none → ¬ call.call.shape.IsFed) : Takes call [] []

/-- The call is not cancelled, and these lines with these requests are for it. -/
structure Stands (call : OpenCall) (requests : List WorkRequest) (needs : List (List Char)) : Prop where
  live : call.stream.cancelled = false
  unary : call.call.shape = .unary → call.call.stage ≠ .head ∧ ∀ response, call.call.stage ≠ .sending response
  takes : call.Takes requests needs

end OpenCall

/-! ## Courses -/

/-- The lines that a connection is still to take and to write for one call, and the draws that it leaves after them. -/
inductive Course (settings : Settings) (conn : Connection) (draws : Load.Draws) : List (List Char) → List (List Char) → Load.Draws → Prop where
  | before {line : List Char} {stream : List (List Char)} {requests : List WorkRequest} {request : Request} (hphase : conn.phase = .idle)
      (hline : IsFullLine line) (hopens : Opens line request)
      (hstands : (OpenCall.ofRequest settings request (conn.ids conn.idsUsed) (conn.orders conn.callsOpened) (Utf8.size line)).Stands requests stream) :
      Course settings conn draws (line :: stream)
        ((OpenCall.ofRequest settings request (conn.ids conn.idsUsed) (conn.orders conn.callsOpened) (Utf8.size line)).toWrite settings draws requests)
        ((OpenCall.ofRequest settings request (conn.ids conn.idsUsed) (conn.orders conn.callsOpened) (Utf8.size line)).prospect settings draws requests).draws
  | during {call : OpenCall} {requests : List WorkRequest} {needs : List (List Char)} (hphase : conn.phase = .serving call)
      (hstands : call.Stands requests needs) :
      Course settings conn draws needs (call.toWrite settings draws requests) (call.prospect settings draws requests).draws
  | after (hphase : conn.phase = .idle) : Course settings conn draws [] [] draws

/-- How far a stage is from the next line that is taken or written. -/
def stageRank : CallStage → Nat
  | .running _ => 2
  | .head => 1
  | .sending _ | .ended _ => 0

theorem stageRank_le (stage : CallStage) : stageRank stage ≤ 2 := by
  cases stage <;> simp [stageRank]

/-- A bound on the steps that are left to a connection on its course. -/
def courseRank (conn : Connection) (needs writes : List (List Char)) : Nat :=
  3 * needs.length + 2 * writes.length +
    match conn.phase with
    | .serving call => stageRank call.call.stage
    | _ => 0

theorem courseRank_of_serving {conn : Connection} {call : OpenCall} (hphase : conn.phase = .serving call) (needs writes : List (List Char)) :
    conn.courseRank needs writes = 3 * needs.length + 2 * writes.length + stageRank call.call.stage := by
  rw [courseRank, hphase]

theorem courseRank_of_idle {conn : Connection} (hphase : conn.phase = .idle) (needs writes : List (List Char)) :
    conn.courseRank needs writes = 3 * needs.length + 2 * writes.length := by
  rw [courseRank, hphase]
  rfl

/-- A step that goes along the course: lines that had been sent are taken, lines are written, and the end is nearer. The client is still to send the lines ahead. -/
def GoesOn (settings : Settings) (conn : Connection) (missing : List UInt8) (pending ahead writes : List (List Char)) (left : Load.Draws)
    (result : Connection × Shared) : Prop :=
  ∃ taken pending' written writes', pending = taken ++ pending' ∧ writes = written ++ writes' ∧
    Course settings result.1 result.2.draws (pending' ++ ahead) writes' left ∧ result.1.IsOpen missing pending'.flatten ∧
    result.1.wire.outbox = conn.wire.outbox ++ Utf8.encode written.flatten ∧
    result.1.courseRank (pending' ++ ahead) writes' < conn.courseRank (pending ++ ahead) writes

/-! ## Steps of an open call -/

theorem OpenCall.response_of_id {call : OpenCall} (next : Call) {stream : CallStream} (hid : stream.id = call.stream.id)
    (outcome : Except Status Reply) : ({ call with call := next, stream } : OpenCall).response outcome = call.response outcome := by
  simp only [response, hid]
  rfl

section

variable {settings : Settings} {conn : Connection} {shared : Shared} {missing : List UInt8} {pending ahead : List (List Char)}
  {call : OpenCall} {requests : List WorkRequest}

/-- A step of the call goes along the course where it sends the first of the responses to come and leaves the others. -/
theorem goesOn_of_step (hphase : conn.phase = .serving call) (houtcome : call.call.outcome? = none) {taken pending' : List (List Char)}
    (hpending : pending = taken ++ pending') {next : Call} {shared' : Shared} {stream : CallStream} {inbox : List UInt8} (sent : List WorkResponse)
    (hstep : (call.call.step peer settings.limits shared (conn.wire, call.stream)).2 =
      (next, shared', { conn.wire with inbox, outbox := conn.wire.outbox ++ Utf8.encode (sent.map (itemLine call.stream.id)).flatten }, stream))
    (hopen : ({ conn with wire := { conn.wire with inbox } } : Connection).IsOpen missing pending'.flatten) (hid : stream.id = call.stream.id)
    {requests' : List WorkRequest} (hstands : ({ call with call := next, stream } : OpenCall).Stands requests' (pending' ++ ahead))
    (hprospect : call.prospect settings shared.draws requests =
      { next.prospect settings.limits shared'.draws (requests'.map WorkRequest.received) with
        responses := sent ++ (next.prospect settings.limits shared'.draws (requests'.map WorkRequest.received)).responses })
    (hrank : stageRank next.stage < stageRank call.call.stage + 2 * sent.length + 3 * taken.length) :
    GoesOn settings conn missing pending ahead (call.toWrite settings shared.draws requests) (call.prospect settings shared.draws requests).draws
      (conn.step settings shared) := by
  rw [step_serving settings shared hphase houtcome hstep]
  have hwrites : call.toWrite settings shared.draws requests =
      sent.map (itemLine call.stream.id) ++ ({ call with call := next, stream } : OpenCall).toWrite settings shared'.draws requests' := by
    simp only [OpenCall.toWrite, OpenCall.response_of_id next hid, hprospect, List.map_append, List.append_assoc, hid]
    rfl
  have hleft : (call.prospect settings shared.draws requests).draws =
      (({ call with call := next, stream } : OpenCall).prospect settings shared'.draws requests').draws := by
    rw [hprospect]
    rfl
  rw [hleft]
  refine ⟨taken, pending', _, _, hpending, hwrites, .during rfl hstands, hopen.same rfl rfl rfl rfl, rfl, ?_⟩
  rw [courseRank_of_serving rfl, courseRank_of_serving hphase, hwrites, hpending]
  simp only [List.length_append, List.length_map]
  omega

/-- A call keeps the lines that are for it while it takes none. -/
theorem OpenCall.Stands.next {needs : List (List Char)} (h : call.Stands requests needs) (hopen : call.call.outcome? = none) {next : Call}
    {stream : CallStream} (hstream : ∃ bytesOut, stream = { call.stream with bytesOut }) (hfed : next.shape.IsFed ↔ call.call.shape.IsFed)
    (hnext : next.outcome? = none ∨ ¬ call.call.shape.IsFed)
    (hunary : next.shape = .unary → next.stage ≠ .head ∧ ∀ response, next.stage ≠ .sending response) :
    ({ call with call := next, stream } : OpenCall).Stands requests needs := by
  obtain ⟨bytesOut, rfl⟩ := hstream
  obtain ⟨hlive, -, htakes⟩ := h
  refine ⟨hlive, hunary, ?_⟩
  cases htakes with
  | stream hshape _ hended hrates => exact .stream (hfed.mpr hshape) (hnext.resolve_right (not_not_intro hshape)) hended hrates
  | nothing hshape => exact .nothing fun _ h' => hshape hopen (hfed.mp h')

theorem goesOn_of_quiet (hopen : conn.IsOpen missing pending.flatten) (hphase : conn.phase = .serving call)
    (hstands : call.Stands requests (pending ++ ahead)) (houtcome : call.call.outcome? = none) {next : Call} {shared' : Shared}
    (hstep : (call.call.step peer settings.limits shared (conn.wire, call.stream)).2 = (next, shared', conn.wire, call.stream))
    (hfed : next.shape.IsFed ↔ call.call.shape.IsFed) (hnext : next.outcome? = none ∨ ¬ call.call.shape.IsFed)
    (hunary : next.shape = .unary → next.stage ≠ .head ∧ ∀ response, next.stage ≠ .sending response)
    (hprospect : call.prospect settings shared.draws requests = next.prospect settings.limits shared'.draws (requests.map WorkRequest.received))
    (hrank : stageRank next.stage < stageRank call.call.stage) :
    GoesOn settings conn missing pending ahead (call.toWrite settings shared.draws requests) (call.prospect settings shared.draws requests).draws
      (conn.step settings shared) := by
  refine goesOn_of_step hphase houtcome (List.nil_append pending).symm [] ?_ hopen rfl
    (hstands.next houtcome ⟨call.stream.bytesOut, rfl⟩ hfed hnext hunary) hprospect hrank
  rw [hstep]
  simp

theorem goesOn_running (hopen : conn.IsOpen missing pending.flatten) (hphase : conn.phase = .serving call)
    (hstands : call.Stands requests (pending ++ ahead)) {shape : Shape} {request : WorkRequest} (hcall : call.call = ⟨shape, .running request⟩) :
    GoesOn settings conn missing pending ahead (call.toWrite settings shared.draws requests) (call.prospect settings shared.draws requests).draws
      (conn.step settings shared) := by
  have houtcome : call.call.outcome? = none := by
    rw [hcall]
    rfl
  have hstep : (call.call.step peer settings.limits shared (conn.wire, call.stream)).2 =
      (Call.afterRun request (runItem settings.limits shared request).1 shape, (runItem settings.limits shared request).2, conn.wire, call.stream) := by
    rw [hcall]
    exact Call.step_running settings.limits peer shared _ shape request
  have hprospect : call.prospect settings shared.draws requests =
      (Call.afterRun request (runItem settings.limits shared request).1 shape).prospect settings.limits
        (runItem settings.limits shared request).2.draws (requests.map WorkRequest.received) := by
    rw [OpenCall.prospect, hcall, Call.prospect_afterRun]
  refine goesOn_of_quiet hopen hphase hstands houtcome hstep ?_ ?_ ?_ hprospect ?_
  · rw [hcall]
    exact Call.isFed_afterRun request _ shape
  · rw [hcall]
    cases shape with
    | unary => exact .inr Shape.not_isFed_unary
    | _ => exact .inl rfl
  · intro hunary
    cases shape with
    | unary => exact ⟨nofun, nofun⟩
    | _ => cases hunary
  · rw [hcall]
    cases shape <;> simp [stageRank, Call.afterRun, Call.finished]

theorem goesOn_sending (hopen : conn.IsOpen missing pending.flatten) (hphase : conn.phase = .serving call)
    (hstands : call.Stands requests (pending ++ ahead)) {shape : Shape} {response : WorkResponse} (hcall : call.call = ⟨shape, .sending response⟩) :
    GoesOn settings conn missing pending ahead (call.toWrite settings shared.draws requests) (call.prospect settings shared.draws requests).draws
      (conn.step settings shared) := by
  have houtcome : call.call.outcome? = none := by
    rw [hcall]
    rfl
  have hstep : (call.call.step peer settings.limits shared (conn.wire, call.stream)).2 =
      (⟨shape, .head⟩, shared,
        { conn.wire with outbox := conn.wire.outbox ++ Utf8.encode ([response].map (itemLine call.stream.id)).flatten },
        { call.stream with bytesOut := call.stream.bytesOut + Utf8.size (itemLine call.stream.id response) }) := by
    rw [hcall]
    simp only [Call.step, peer, send_of_room hopen.room, List.map_singleton, List.flatten_singleton]
    rfl
  have hprospect : call.prospect settings shared.draws requests =
      (shape.prospect settings.limits shared.draws (requests.map WorkRequest.received)).sending response := by
    rw [OpenCall.prospect, hcall]
    rfl
  refine goesOn_of_step hphase houtcome (List.nil_append pending).symm [response] hstep hopen rfl (hstands.next houtcome ⟨_, rfl⟩ ?_ (.inl rfl) ?_)
    hprospect ?_
  · rw [hcall]
  · intro hunary
    have hnever := (hstands.unary (by rw [hcall]; exact hunary)).2 response
    rw [hcall] at hnever
    exact absurd rfl hnever
  · rw [hcall]
    simp [stageRank]

theorem goesOn_repeated (hopen : conn.IsOpen missing pending.flatten) (hphase : conn.phase = .serving call)
    (hstands : call.Stands requests (pending ++ ahead)) {item : WorkRequest} {times : Nat} (hcall : call.call = ⟨.repeated item times, .head⟩) :
    GoesOn settings conn missing pending ahead (call.toWrite settings shared.draws requests) (call.prospect settings shared.draws requests).draws
      (conn.step settings shared) := by
  have houtcome : call.call.outcome? = none := by
    rw [hcall]
    rfl
  have hprospect : call.prospect settings shared.draws requests =
      (Shape.repeated item times).prospect settings.limits shared.draws (requests.map WorkRequest.received) := by
    rw [OpenCall.prospect, hcall]
    rfl
  cases times with
  | zero =>
    have hstep : (call.call.step peer settings.limits shared (conn.wire, call.stream)).2 =
        (.finished (.repeated item 0) (.ok .nothing), shared, conn.wire, call.stream) := by
      rw [hcall]
      rfl
    refine goesOn_of_quiet hopen hphase hstands houtcome hstep (by rw [hcall]; rfl) (.inr ?_) (fun h => by cases h) (hprospect.trans rfl) ?_
    · rw [hcall]
      exact Shape.not_isFed_repeated item 0
    · rw [hcall]
      exact Nat.zero_lt_one
  | succ left =>
    have hstep : (call.call.step peer settings.limits shared (conn.wire, call.stream)).2 =
        (⟨.repeated item left, .sending (runItem settings.limits shared item).1⟩, (runItem settings.limits shared item).2, conn.wire, call.stream) := by
      rw [hcall]
      simp only [Call.step, peer, hstands.live]
    refine goesOn_of_quiet hopen hphase hstands houtcome hstep ?_ (.inl rfl) (fun h => by cases h) ?_ ?_
    · rw [hcall]
      exact iff_of_false (Shape.not_isFed_repeated item left) (Shape.not_isFed_repeated item (left + 1))
    · rw [hprospect, Call.prospect_repeated]
    · rw [hcall]
      exact Nat.zero_lt_one

/-- A line that is taken goes along the course where it changes nothing of what is to come. -/
theorem goesOn_of_line {line : List Char} (hopen : conn.IsOpen missing (line ++ pending.flatten)) (hphase : conn.phase = .serving call)
    {shape : Shape} (hcall : call.call = ⟨shape, .head⟩) (hfed : shape.IsFed) (hlive : call.stream.cancelled = false)
    (hended : call.stream.ended = false) (hline : IsFullLine line) (requests' : List WorkRequest)
    (hstands : ({ call with
      call := afterReceive shape (some (afterLine call.stream line).1)
      stream := (afterLine call.stream line).2 } : OpenCall).Stands requests' (pending ++ ahead))
    (hprospect : (afterReceive shape (some (afterLine call.stream line).1)).prospect settings.limits shared.draws (requests'.map WorkRequest.received) =
      shape.prospect settings.limits shared.draws (requests.map WorkRequest.received)) :
    (conn.step settings shared = (conn, shared) ∧ missing ≠ []) ∨
      GoesOn settings conn missing (line :: pending) ahead (call.toWrite settings shared.draws requests)
        (call.prospect settings shared.draws requests).draws (conn.step settings shared) := by
  have houtcome : call.call.outcome? = none := by
    rw [hcall]
    rfl
  have hcurrent : call.prospect settings shared.draws requests =
      shape.prospect settings.limits shared.draws (requests.map WorkRequest.received) := by
    rw [OpenCall.prospect, hcall]
    rfl
  have hreceive := hopen.receive_line settings.limits shared hline hended hlive hfed
  rw [← hcall] at hreceive
  rcases hreceive with ⟨hstill, hmissing⟩ | ⟨inbox, hstep, hopen', -⟩
  · exact .inl ⟨step_of_still settings shared hphase houtcome hstill, hmissing⟩
  · right
    have hnothing : { conn.wire with inbox } =
        { conn.wire with inbox, outbox := conn.wire.outbox ++ Utf8.encode (([] : List WorkResponse).map (itemLine call.stream.id)).flatten } := by
      simp
    rw [hnothing] at hstep
    refine goesOn_of_step hphase houtcome (List.singleton_append).symm [] hstep hopen' (afterLine_id call.stream line) hstands
      (hcurrent.trans hprospect.symm) ?_
    rw [hcall]
    exact lt_of_le_of_lt (stageRank_le _) (by simp [stageRank])

/-- A call that is fed takes the next line of its stream, unless the line has not arrived. -/
theorem goesOn_fed (hopen : conn.IsOpen missing pending.flatten) (hphase : conn.phase = .serving call)
    (hstands : call.Stands requests (pending ++ ahead)) {shape : Shape} (hcall : call.call = ⟨shape, .head⟩) (hfed : shape.IsFed) :
    (conn.step settings shared = (conn, shared) ∧ (missing = [] → pending = [])) ∨
      GoesOn settings conn missing pending ahead (call.toWrite settings shared.draws requests) (call.prospect settings shared.draws requests).draws
        (conn.step settings shared) := by
  have houtcome : call.call.outcome? = none := by
    rw [hcall]
    rfl
  have hunary : shape ≠ .unary := by
    rintro rfl
    exact Shape.not_isFed_unary hfed
  have htakes := hstands.takes
  generalize hneeds : pending ++ ahead = needs at htakes
  cases htakes with
  | nothing h => exact absurd (by rw [hcall]; exact hfed) (h houtcome)
  | stream _ _ hended hrates =>
    cases pending with
    | nil =>
      refine .inl ⟨step_of_still settings shared hphase houtcome ?_, fun _ => rfl⟩
      rw [hcall, step_receiving settings.limits shared hfed hstands.live, receive, if_neg (by simp [hended]),
        Wire.Expects.nextLine_of_nil hopen.expects hopen.inputOpen]
      rfl
    | cons line pending =>
      rw [List.cons_append] at hneeds
      cases requests with
      | nil =>
        obtain ⟨rfl, hrest⟩ := List.cons.inj hneeds
        obtain ⟨bytesIn, hafter⟩ := afterLine_finish call.stream
        refine (goesOn_of_line hopen hphase hcall hfed hstands.live hended (isFullLine_frame _) [] ?_ ?_).imp_left fun hstill =>
          ⟨hstill.1, fun hmissing => absurd hmissing hstill.2⟩
        · rw [hafter, hrest]
          exact ⟨hstands.live, fun h => absurd h hunary, .nothing fun h => by cases h⟩
        · rw [hafter]
          exact hfed.prospect_ended settings.limits shared.draws []
      | cons request requests =>
        obtain ⟨rfl, hrest⟩ := List.cons.inj hneeds
        obtain ⟨hrate, hrates'⟩ := List.forall_mem_cons.mp hrates
        obtain ⟨bytesIn, hafter⟩ := afterLine_item call.stream hrate
        refine (goesOn_of_line hopen hphase hcall hfed hstands.live hended (isFullLine_frame _) requests ?_ ?_).imp_left fun hstill =>
          ⟨hstill.1, fun hmissing => absurd hmissing hstill.2⟩
        · rw [hafter, hrest]
          exact ⟨hstands.live, fun h => absurd h hunary, .stream hfed rfl hended hrates'⟩
        · rw [hafter]
          exact hfed.prospect_received settings.limits shared.draws _ _

theorem length_toWrite_le (settings : Settings) {needs : List (List Char)} (hstands : call.Stands requests needs) {shape : Shape}
    (hcall : call.call = ⟨shape, .head⟩) (hfed : shape.IsFed) (draws : Load.Draws) : (call.toWrite settings draws requests).length ≤ needs.length := by
  have hprospect : call.prospect settings draws requests = shape.prospect settings.limits draws (requests.map WorkRequest.received) := by
    rw [OpenCall.prospect, hcall]
    rfl
  have hresponses : (shape.prospect settings.limits draws (requests.map WorkRequest.received)).responses.length ≤ requests.length := by
    rcases hfed with ⟨summary, rfl⟩ | rfl
    · exact Nat.zero_le _
    · rw [Shape.length_prospect_exchange, List.length_map]
  cases hstands.takes with
  | nothing h => exact absurd (by rw [hcall]; exact hfed) (h (by rw [hcall]; rfl))
  | stream =>
    rw [OpenCall.toWrite, hprospect, List.length_append, List.length_map, List.length_singleton, length_requestLines]
    exact Nat.succ_le_succ hresponses

/-- The end of a call leaves the connection between calls, with nothing to come. -/
theorem goesOn_ended (hopen : conn.IsOpen missing pending.flatten) (hphase : conn.phase = .serving call)
    (hstands : call.Stands requests (pending ++ ahead)) {outcome : Except Status Reply} (houtcome : call.call.outcome? = some outcome) :
    GoesOn settings conn missing pending ahead (call.toWrite settings shared.draws requests) (call.prospect settings shared.draws requests).draws
      (conn.step settings shared) := by
  have hprospect : call.prospect settings shared.draws requests = { outcome, draws := shared.draws } := by
    rcases hcall : call.call with ⟨shape, stage⟩
    rw [hcall] at houtcome
    cases stage with
    | ended last =>
      obtain rfl : last = outcome := Option.some.inj houtcome
      rw [OpenCall.prospect, hcall]
      rfl
    | _ => cases houtcome
  have htakes := hstands.takes
  generalize hneeds : pending ++ ahead = needs at htakes
  cases htakes with
  | stream _ hnone =>
    rw [hnone] at houtcome
    cases houtcome
  | nothing =>
    obtain ⟨rfl, rfl⟩ := List.append_eq_nil_iff.mp hneeds
    obtain ⟨shared', hstep, hdraws⟩ := hopen.step_ended settings shared hphase houtcome
    rw [hstep, OpenCall.toWrite, hprospect]
    refine ⟨[], [], [(call.response outcome).line], [], rfl, rfl, ?_, hopen.same rfl rfl rfl rfl, ?_, ?_⟩
    · rw [← hdraws]
      exact .after rfl
    · simp
    · rw [courseRank_of_idle rfl, courseRank_of_serving hphase]
      simp only [List.map_nil, List.append_nil, List.length_nil, List.nil_append, List.length_singleton]
      omega

end

/-- A step of a connection on its course goes on, or it changes nothing. In that case, where nothing is on its way, the connection waits for a request or for no fewer lines than it has to write. -/
theorem Course.step {settings : Settings} {conn : Connection} {shared : Shared} {missing : List UInt8} {pending ahead writes : List (List Char)}
    {left : Load.Draws} (h : Course settings conn shared.draws (pending ++ ahead) writes left) (hopen : conn.IsOpen missing pending.flatten) :
    (conn.step settings shared = (conn, shared) ∧
        (missing = [] → pending = [] ∧ (writes.length ≤ ahead.length ∨ ∃ line ∈ ahead, ∃ request, Opens line request))) ∨
      GoesOn settings conn missing pending ahead writes left (conn.step settings shared) := by
  generalize hneeds : pending ++ ahead = needs at h
  cases h with
  | after hphase =>
    obtain ⟨rfl, rfl⟩ := List.append_eq_nil_iff.mp hneeds
    exact .inl ⟨hopen.step_idle_nil settings shared hphase, fun _ => ⟨rfl, .inl (Nat.le_refl 0)⟩⟩
  | before hphase hline hopens hstands =>
    cases pending with
    | nil =>
      obtain rfl : ahead = _ := hneeds
      exact .inl ⟨hopen.step_idle_nil settings shared hphase, fun _ => ⟨rfl, .inr ⟨_, List.mem_cons_self, _, hopens⟩⟩⟩
    | cons line pending =>
      obtain ⟨rfl, rfl⟩ := List.cons.inj hneeds
      rcases hopen.step_idle settings shared hphase hline with ⟨hstep, hmissing⟩ | ⟨inbox, hstep, hopen', -⟩
      · exact .inl ⟨hstep, fun h => absurd h hmissing⟩
      · right
        rw [hstep, takeLine_of_opens settings shared hopens]
        refine ⟨[line], pending, [], _, rfl, (List.nil_append _).symm, .during rfl hstands, hopen'.same rfl rfl rfl rfl, ?_, ?_⟩
        · simp [openCall]
        · rw [courseRank_of_idle hphase, openCall, courseRank_of_serving rfl]
          refine lt_of_le_of_lt (Nat.add_le_add_left (stageRank_le _) _) ?_
          simp only [List.cons_append, List.length_cons]
          omega
  | during hphase hstands =>
    rename_i call requests
    subst hneeds
    rcases hcall : call.call with ⟨shape, stage⟩
    cases stage with
    | running request => exact .inr (goesOn_running hopen hphase hstands hcall)
    | sending response => exact .inr (goesOn_sending hopen hphase hstands hcall)
    | ended outcome => exact .inr (goesOn_ended hopen hphase hstands (by rw [hcall]; rfl))
    | head =>
      have hwaits (hfed : shape.IsFed) (hpending : pending = []) : (call.toWrite settings shared.draws requests).length ≤ ahead.length := by
        have hlength := length_toWrite_le settings hstands hcall hfed shared.draws
        rwa [hpending, List.nil_append] at hlength
      cases shape with
      | unary =>
        have hnever := (hstands.unary (by rw [hcall])).1
        rw [hcall] at hnever
        exact absurd rfl hnever
      | repeated item times => exact .inr (goesOn_repeated hopen hphase hstands hcall)
      | tally summary =>
        have hfed := Shape.isFed_tally summary
        exact (goesOn_fed hopen hphase hstands hcall hfed).imp_left fun h => ⟨h.1, fun hmissing => ⟨h.2 hmissing, .inl (hwaits hfed (h.2 hmissing))⟩⟩
      | exchange =>
        have hfed := Shape.isFed_exchange
        exact (goesOn_fed hopen hphase hstands hcall hfed).imp_left fun h => ⟨h.1, fun hmissing => ⟨h.2 hmissing, .inl (hwaits hfed (h.2 hmissing))⟩⟩

/-! ## Other events -/

section

variable {settings : Settings} {conn : Connection} {draws left : Load.Draws} {needs writes : List (List Char)}

/-- What arrives and what has been written do not matter for the course. -/
theorem Course.same (h : Course settings conn draws needs writes left) {next : Connection} (hphase : next.phase = conn.phase)
    (hids : next.ids = conn.ids) (hused : next.idsUsed = conn.idsUsed) (horders : next.orders = conn.orders)
    (hopened : next.callsOpened = conn.callsOpened) : Course settings next draws needs writes left := by
  obtain ⟨wire, shutdown, phase, ids, used, orders, opened⟩ := conn
  obtain ⟨wire', shutdown', phase', ids', used', orders', opened'⟩ := next
  obtain rfl : phase' = phase := hphase
  obtain rfl : ids' = ids := hids
  obtain rfl : used' = used := hused
  obtain rfl : orders' = orders := horders
  obtain rfl : opened' = opened := hopened
  cases h with
  | before hidle hline hopens hstands => exact .before hidle hline hopens hstands
  | during hserving hstands => exact .during hserving hstands
  | after hidle => exact .after hidle

theorem OpenCall.Stands.unwatched {call : OpenCall} {requests : List WorkRequest} (h : call.Stands requests needs) :
    ({ call with watching := false } : OpenCall).Stands requests needs where
  live := h.live
  unary := h.unary
  takes := by
    cases h.takes with
    | stream hfed hopen hended hrates => exact .stream hfed hopen hended hrates
    | nothing hopen => exact .nothing hopen

/-- A peer that stays is never taken for one that has hung up. -/
theorem Course.watch (h : Course settings conn draws needs writes left) (hinput : conn.wire.inputEnded = false) :
    Course settings conn.watch draws needs writes left := by
  rcases watch_of_open hinput with hstill | ⟨call, hphase, hstops⟩
  · rw [hstill]
    exact h
  · rw [hstops]
    cases h with
    | before hidle =>
      rw [hphase] at hidle
      cases hidle
    | after hidle =>
      rw [hphase] at hidle
      cases hidle
    | during hserving hstands =>
      obtain rfl := Phase.serving.inj (hphase.symm.trans hserving)
      have hnext : Course settings { conn with phase := .serving { call with watching := false } } draws needs _ _ :=
        .during rfl hstands.unwatched
      exact hnext

end

end LoadGenerator.Connection
