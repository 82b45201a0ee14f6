import LoadGenerator.Proofs.Connection.Account
import LoadGenerator.Proofs.Message.Lines

/-!
# Steps with the next line known

What a connection that nothing has disturbed does next, where the text that the peer is still to send is known. A step that needs a line takes it from that text, unless some of its bytes have not arrived; every other step goes on without the peer.
-/

namespace LoadGenerator.Connection

open Message Service

/-- The peer goes on sending the text, every write succeeds, and the daemon is not shutting down. -/
structure IsOpen (conn : Connection) (missing : List UInt8) (text : List Char) : Prop extends conn.wire.IsOpen missing text where
  live : conn.shutdown = false

section

variable {conn : Connection} {missing : List UInt8} {line rest text : List Char} (settings : Settings) (shared : Shared)

/-- Only the inbox and the flags of a connection matter for what is expected of it. -/
theorem IsOpen.same (h : conn.IsOpen missing text) {next : Connection} (hinbox : next.wire.inbox = conn.wire.inbox)
    (hended : next.wire.inputEnded = conn.wire.inputEnded) (hroom : next.wire.room = conn.wire.room)
    (hshutdown : next.shutdown = conn.shutdown) : next.IsOpen missing text where
  toIsOpen := h.toIsOpen.same hinbox hended hroom
  live := hshutdown.trans h.live

theorem IsOpen.deliver {bytes : List UInt8} (h : conn.IsOpen (bytes ++ missing) text) :
    ({ conn with wire := conn.wire.deliver bytes } : Connection).IsOpen missing text where
  toIsOpen := h.toIsOpen.deliver
  live := h.live

/-! ## Between calls -/

theorem step_of_idle (hphase : conn.phase = .idle) : conn.step settings shared = conn.stepIdle settings shared := by
  rw [step, hphase]

theorem IsOpen.step_idle (h : conn.IsOpen missing (line ++ rest)) (hphase : conn.phase = .idle) (hline : IsFullLine line) :
    (conn.step settings shared = (conn, shared) ∧ missing ≠ []) ∨
      ∃ inbox, conn.step settings shared = takeLine settings { conn with wire := { conn.wire with inbox } } shared line ∧
        ({ conn with wire := { conn.wire with inbox } } : Connection).IsOpen missing rest ∧ inbox.length < conn.wire.inbox.length := by
  rw [step_of_idle settings shared hphase, stepIdle, if_neg (by simp [h.live])]
  rcases h.expects.readLine_of_line h.inputOpen hline with ⟨hread, hmissing⟩ | ⟨inbox, hread, hexpects, hshorter⟩
  · rw [hread]
    exact .inl ⟨rfl, hmissing⟩
  · rw [hread]
    exact .inr ⟨inbox, rfl, ⟨⟨hexpects, h.inputOpen, h.room⟩, h.live⟩, hshorter⟩

theorem IsOpen.step_idle_nil (h : conn.IsOpen missing []) (hphase : conn.phase = .idle) :
    conn.step settings shared = (conn, shared) := by
  rw [step_of_idle settings shared hphase, stepIdle, if_neg (by simp [h.live]), h.expects.readLine_of_nil h.inputOpen]

theorem takeLine_of_opens {request : Request} (hopens : Opens line request) :
    takeLine settings conn shared line = conn.openCall settings shared request (Utf8.size line) := by
  rw [takeLine, if_neg (by simp [hopens.visible]), hopens.parsed]
  dsimp only
  rw [if_neg (not_not_intro hopens.version)]

theorem takeLine_of_unreadable {e : JsonError} (hvisible : isBlankLine line = false)
    (hparse : Request.codec.parse (String.ofList line) = .error e) :
    takeLine settings conn shared line = (conn.reject (unreadableResponse e), shared) := by
  rw [takeLine, if_neg (by simp [hvisible]), hparse]

/-- A line that is not blank and opens no call is rejected. -/
theorem exists_rejection (hvisible : isBlankLine line = false) (hopens : ∀ request, ¬ Opens line request) :
    ∃ id code message, ∀ settings conn shared, takeLine settings conn shared line = (conn.reject (.plainFailure id code message), shared) := by
  cases hparse : Request.codec.parse (String.ofList line) with
  | error e => exact ⟨_, _, _, fun settings conn shared => takeLine_of_unreadable settings shared hvisible hparse⟩
  | ok request =>
    have hversion : request.version ≠ protocolVersion := fun heq => hopens request ⟨hvisible, hparse, heq⟩
    have hrejects : ∀ settings conn shared, takeLine settings conn shared line = (conn.reject (versionResponse request), shared) := by
      intro settings conn shared
      rw [takeLine, if_neg (by simp [hvisible]), hparse]
      dsimp only
      rw [if_pos hversion]
    exact ⟨_, _, _, hrejects⟩

/-! ## In a call -/

theorem step_of_serving {call : OpenCall} (hphase : conn.phase = .serving call) :
    conn.step settings shared = conn.stepCall settings shared call := by
  rw [step, hphase]

theorem IsOpen.step_ended (h : conn.IsOpen missing text) {call : OpenCall} (hphase : conn.phase = .serving call)
    {outcome : Except Status Reply} (houtcome : call.call.outcome? = some outcome) :
    ∃ shared', conn.step settings shared =
        ({ conn with
            wire := { conn.wire with outbox := conn.wire.outbox ++ Utf8.encode (call.response outcome).line }
            phase := .idle }, shared') ∧ shared'.draws = shared.draws := by
  rw [step_of_serving settings shared hphase, stepCall, houtcome]
  dsimp only
  rw [closeCall, writeLine_of_room h.room]
  exact ⟨_, rfl, rfl⟩

/-- Any other step of a call leaves the connection in the call. -/
theorem step_serving {call : OpenCall} (hphase : conn.phase = .serving call) (houtcome : call.call.outcome? = none)
    {next : Call} {shared' : Shared} {wire : Wire} {stream : CallStream}
    (hstep : (call.call.step peer settings.limits shared (conn.wire, call.stream)).2 = (next, shared', wire, stream)) :
    conn.step settings shared = ({ conn with wire, phase := .serving { call with call := next, stream } }, shared') := by
  rw [step_of_serving settings shared hphase, stepCall, houtcome]
  dsimp only
  generalize call.call.step peer settings.limits shared (conn.wire, call.stream) = result at hstep
  obtain ⟨act, state⟩ := result
  obtain rfl : state = (next, shared', wire, stream) := hstep
  rfl

theorem step_of_still {call : OpenCall} (hphase : conn.phase = .serving call) (houtcome : call.call.outcome? = none)
    (hstep : (call.call.step peer settings.limits shared (conn.wire, call.stream)).2 = (call.call, shared, conn.wire, call.stream)) :
    conn.step settings shared = (conn, shared) := by
  rw [step_serving settings shared hphase houtcome hstep, ← hphase]

end

/-! ## The lines of a stream -/

/-- The frames of some items, and the end frame. -/
def streamLines (id : Option RequestId) (data : List Json) : List (List Char) :=
  data.map (fun item => (Frame.item id item).line) ++ [(Frame.finish id).line]

theorem requestOf_finish (id : Option RequestId) : requestOf id (Frame.finish id).line = .ok none := by
  have hparse : Frame.codec.parse (String.ofList (Frame.finish id).line) = .ok (.finish id) :=
    Frame.parse_line trivial (Nat.zero_lt_succ _)
  have hid : ¬ (Frame.finish id).id ≠ id := not_not_intro rfl
  rw [requestOf, hparse]
  dsimp only
  rw [if_neg hid]
  rfl

theorem requestOf_item_of_shallow (id : Option RequestId) {data : Json} (hwritable : data.IsWritable) (hdepth : data.depth < JsonReader.depthLimit) :
    requestOf id (Frame.item id data).line =
      match WorkRequest.codec.ofJson data.reread with
      | .error e => .error (.malformed e)
      | .ok request => .ok (some request) := by
  have hparse : Frame.codec.parse (String.ofList (Frame.item id data).line) = .ok (.item id data.reread) := Frame.parse_line hwritable hdepth
  have hid : ¬ (Frame.item id data.reread).id ≠ id := not_not_intro rfl
  rw [requestOf, hparse]
  dsimp only
  rw [if_neg hid]
  rfl

/-- A line that opens no call. -/
structure IsLeftOver (line : List Char) : Prop where
  full : IsFullLine line
  unreadable : ∃ e, Request.codec.parse (String.ofList line) = .error e

theorem isLeftOver_line {frame : Frame} (hwritable : frame.data.IsWritable) : IsLeftOver frame.line where
  full := isFullLine_lineOf Frame.record frame
  unreadable := Frame.parse_line_request hwritable

theorem isLeftOver_streamLines (id : Option RequestId) {data : List Json} (hdata : ∀ item ∈ data, item.IsWritable) :
    ∀ line ∈ streamLines id data, IsLeftOver line := by
  intro line hline
  rw [streamLines, List.mem_append, List.mem_map, List.mem_singleton] at hline
  rcases hline with ⟨item, hitem, rfl⟩ | rfl
  · exact isLeftOver_line (show (Frame.item id item).data.IsWritable from hdata item hitem)
  · exact isLeftOver_line (show (Frame.finish id).data.IsWritable from trivial)

/-- What a line brings to a call: a request, the end of the stream, or a failure. -/
def afterLine (stream : CallStream) (line : List Char) : Except Status (Option WorkRequest) × CallStream :=
  let counted := { stream with bytesIn := stream.bytesIn + Utf8.size line }
  match requestOf stream.id line with
  | .ok none => (.ok none, { counted with ended := true })
  | .ok (some request) => (.ok (some request), counted)
  | .error fault => (.error fault.toStatus, counted)

theorem receive_of_line {wire : Wire} {missing : List UInt8} {line rest : List Char} (h : wire.Expects missing (line ++ rest))
    (hopen : wire.inputEnded = false) (hline : IsFullLine line) {stream : CallStream} (hended : stream.ended = false) :
    (receive (wire, stream) = (none, wire, stream) ∧ missing ≠ []) ∨
      ∃ inbox, receive (wire, stream) = (some (afterLine stream line).1, { wire with inbox }, (afterLine stream line).2) ∧
        Wire.Expects { wire with inbox } missing rest ∧ inbox.length < wire.inbox.length := by
  rcases h.nextLine_of_line hopen hline with ⟨hnext, hmissing⟩ | ⟨inbox, hnext, hexpects, hshorter⟩
  · refine .inl ⟨?_, hmissing⟩
    rw [receive, if_neg (by simp [hended]), hnext]
    rfl
  · refine .inr ⟨inbox, ?_, hexpects, hshorter⟩
    simp only [receive, hended, hnext, Bool.false_eq_true, if_false, afterLine]
    cases requestOf stream.id line with
    | error fault => rfl
    | ok received => cases received <;> rfl

theorem afterLine_id (stream : CallStream) (line : List Char) : (afterLine stream line).2.id = stream.id := by
  unfold afterLine
  split <;> rfl

/-- A call at the head of its loop takes in what the line that is expected brings. -/
theorem IsOpen.receive_line {conn : Connection} {missing : List UInt8} {line rest : List Char} (h : conn.IsOpen missing (line ++ rest))
    (limits : Load.Limits) (shared : Shared) (hline : IsFullLine line) {stream : CallStream} (hended : stream.ended = false)
    (hlive : stream.cancelled = false) {shape : Shape} (hshape : (∃ summary, shape = .tally summary) ∨ shape = .exchange) :
    ((Call.step peer limits ⟨shape, .head⟩ shared (conn.wire, stream)).2 = (⟨shape, .head⟩, shared, conn.wire, stream) ∧ missing ≠ []) ∨
      ∃ inbox, (Call.step peer limits ⟨shape, .head⟩ shared (conn.wire, stream)).2 =
          (afterReceive shape (some (afterLine stream line).1), shared, { conn.wire with inbox }, (afterLine stream line).2) ∧
        ({ conn with wire := { conn.wire with inbox } } : Connection).IsOpen missing rest ∧ inbox.length < conn.wire.inbox.length := by
  rw [step_receiving limits shared hshape hlive]
  rcases receive_of_line h.expects h.inputOpen hline hended with ⟨hreceive, hmissing⟩ | ⟨inbox, hreceive, hexpects, hshorter⟩
  · rw [hreceive]
    exact .inl ⟨rfl, hmissing⟩
  · rw [hreceive]
    exact .inr ⟨inbox, rfl, ⟨⟨hexpects, h.inputOpen, h.room⟩, h.live⟩, hshorter⟩

end LoadGenerator.Connection
