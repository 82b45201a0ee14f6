import LoadGenerator.Proofs.Client.Progress
import LoadGenerator.Proofs.Connection.Course

/-!
# Steps of a connection, line by line

Where the peer sends whole lines and none of them is blank, each step of a connection takes some of the lines on their way to it and writes some. What the open call counts is the bytes of these lines, and the log gets its entry with the counts at the end.
-/

namespace LoadGenerator.Connection

open Message Service
open Client (EndsCalls endsCalls_plainFailure)

/-! ## Between calls -/

section

variable {conn : Connection} {settings : Settings} {shared : Shared}

/-- A line that is not blank opens a call, or a response rejects it. -/
theorem takeLine_cases {line : List Char} (hline : isBlankLine line = false) :
    (∃ response : Response, (∀ request, ¬ Opens line request) ∧ takeLine settings conn shared line = (conn.reject response, shared) ∧
        EndsCalls response.line False) ∨
      ∃ request, Opens line request ∧ takeLine settings conn shared line = conn.openCall settings shared request (Utf8.size line) := by
  by_cases hopens : ∃ request, Opens line request
  · obtain ⟨request, hopens⟩ := hopens
    exact .inr ⟨request, hopens, takeLine_of_opens settings shared hopens⟩
  · have hnone : ∀ request, ¬ Opens line request := fun request hopen => hopens ⟨request, hopen⟩
    obtain ⟨id, code, message, hrejects⟩ := exists_rejection hline hnone
    exact .inl ⟨_, hnone, hrejects settings conn shared, endsCalls_plainFailure id code message⟩

end

/-! ## In a call -/

/-- Lines of items. -/
def AreItems (lines : List (List Char)) : Prop := ∀ line ∈ lines, ∃ id response, line = itemLine id response

/-- What a step of an open call does that does not end it: it takes the first of the lines on their way, and writes items. -/
structure Serves (method : String) (conn : Connection) (call : OpenCall) (shared : Shared) (missing : List UInt8) (pending : List (List Char))
    (taken pending' written : List (List Char)) (next : Connection) (call' : OpenCall) (shared' : Shared) : Prop where
  lines_eq : pending = taken ++ pending'
  phase : next.phase = .serving call'
  opened : next.IsOpen missing pending'.flatten
  outbox_eq : next.wire.outbox = conn.wire.outbox ++ Utf8.encode written.flatten
  items : AreItems written
  meter : call'.meter = ⟨call.meter.labels, call.meter.bytesIn + Utf8.size taken.flatten, call.meter.bytesOut + Utf8.size written.flatten⟩
  suits : call'.call.Suits method
  cancelled_eq : call'.stream.cancelled = call.stream.cancelled
  log_eq : shared'.log = shared.log

section

variable {conn : Connection} {settings : Settings} {shared shared' : Shared} {missing : List UInt8} {pending pending' taken written : List (List Char)}
  {call : OpenCall} {next : Call} {stream : CallStream} {method : String}

/-- The same for a step of which all is known. -/
theorem serves_of_step (hopen : conn.IsOpen missing pending.flatten) (hphase : conn.phase = .serving call) (houtcome : call.call.outcome? = none)
    (hsuits : call.call.Suits method) (inbox : List UInt8) (hstep : (call.call.step peer settings.limits shared (conn.wire, call.stream)).2 =
      (next, shared', { conn.wire with inbox, outbox := conn.wire.outbox ++ Utf8.encode written.flatten }, stream))
    (hlines : pending = taken ++ pending') (hinbox : Wire.Expects { conn.wire with inbox } missing pending'.flatten) (hitems : AreItems written)
    (hin : stream.bytesIn = call.stream.bytesIn + Utf8.size taken.flatten)
    (hout : stream.bytesOut = call.stream.bytesOut + Utf8.size written.flatten) (hcancelled : stream.cancelled = call.stream.cancelled) :
    Serves method conn call shared missing pending taken pending' written (conn.step settings shared).1 { call with call := next, stream }
      (conn.step settings shared).2 := by
  have hlog := Call.log_step peer settings.limits call.call shared (conn.wire, call.stream)
  obtain ⟨_, _, _, _, heffect⟩ :=
    @CallEffect.step method conn.wire call.stream missing pending.flatten settings.limits shared call.call hsuits houtcome hopen.expects hopen.room
  have hnext := heffect.suits
  rw [hstep] at hlog hnext
  rw [step_serving settings shared hphase houtcome hstep]
  refine ⟨hlines, rfl, ⟨⟨⟨hinbox.bytes, hinbox.complete⟩, hopen.inputOpen, hopen.room⟩, hopen.live⟩, rfl, hitems, ?_, hnext, hcancelled, hlog⟩
  rw [OpenCall.meter, hin, hout]
  rfl

theorem serves_of_quiet (hopen : conn.IsOpen missing pending.flatten) (hphase : conn.phase = .serving call) (houtcome : call.call.outcome? = none)
    (hsuits : call.call.Suits method) (hstep : (call.call.step peer settings.limits shared (conn.wire, call.stream)).2 = (next, shared', conn.wire, call.stream)) :
    Serves method conn call shared missing pending [] pending [] (conn.step settings shared).1 { call with call := next }
      (conn.step settings shared).2 := by
  have hsame : conn.wire = { conn.wire with outbox := conn.wire.outbox ++ Utf8.encode ([] : List (List Char)).flatten } := by simp
  exact serves_of_step hopen hphase houtcome hsuits conn.wire.inbox (by rw [hstep, ← hsame]) rfl hopen.expects nofun rfl rfl rfl

variable (settings shared) in
/-- Whatever the method of a call is, and whatever its stream. -/
theorem exists_serves (hopen : conn.IsOpen missing pending.flatten) (hphase : conn.phase = .serving call)
    (houtcome : call.call.outcome? = none) (hsuits : call.call.Suits method) (hpending : ∀ line ∈ pending, IsFullLine line) :
    ∃ taken pending' written call',
      Serves method conn call shared missing pending taken pending' written (conn.step settings shared).1 call' (conn.step settings shared).2 := by
  obtain ⟨taken, rest, frames, inbox, heffect⟩ := CallEffect.step settings.limits shared hsuits houtcome hopen.expects hopen.room
  generalize hstep : call.call.step peer settings.limits shared (conn.wire, call.stream) = result at heffect
  obtain ⟨act, next, shared', wire', stream'⟩ := result
  dsimp only at heffect
  obtain rfl := heffect.wire_eq
  have hwritten : frames.flatMap Frame.line = (frames.map Frame.line).flatten := List.flatMap_def
  have hlines := heffect.lines_eq
  rw [textLines_flatten hpending] at hlines
  refine ⟨taken, textLines rest, frames.map Frame.line, { call with call := next, stream := stream' },
    serves_of_step hopen hphase houtcome hsuits inbox (by rw [hstep, hwritten]) hlines ?_ ?_ heffect.bytesIn_eq ?_ heffect.cancelled_eq⟩
  · rw [flatten_textLines]
    exact heffect.expects
  · intro line hline
    obtain ⟨frame, hframe, rfl⟩ := List.mem_map.mp hline
    obtain ⟨response, rfl⟩ := heffect.frames_item frame hframe
    exact ⟨_, response, rfl⟩
  · rw [heffect.bytesOut_eq, hwritten]

/-- The step that sends a response to one request. -/
theorem serves_of_sending (hopen : conn.IsOpen missing pending.flatten) (hphase : conn.phase = .serving call) (hsuits : call.call.Suits method)
    {shape : Shape} {response : WorkResponse} (hcall : call.call = ⟨shape, .sending response⟩) :
    ∃ stream', stream'.ended = call.stream.ended ∧ stream'.id = call.stream.id ∧
      Serves method conn call shared missing pending [] pending [itemLine call.stream.id response] (conn.step settings shared).1
        { call with call := ⟨shape, .head⟩, stream := stream' } (conn.step settings shared).2 := by
  have houtcome : call.call.outcome? = none := by
    rw [hcall]
    rfl
  let stream' := { call.stream with bytesOut := call.stream.bytesOut + Utf8.size (itemLine call.stream.id response) }
  have hstep : (call.call.step peer settings.limits shared (conn.wire, call.stream)).2 =
      (⟨shape, .head⟩, shared, { conn.wire with outbox := conn.wire.outbox ++ Utf8.encode [itemLine call.stream.id response].flatten }, stream') := by
    rw [hcall, List.flatten_singleton]
    simp only [Call.step, peer, send_of_room hopen.room, itemLine, stream']
  refine ⟨stream', rfl, rfl, serves_of_step hopen hphase houtcome hsuits conn.wire.inbox hstep rfl hopen.expects ?_ rfl ?_ rfl⟩
  · intro line hline
    exact ⟨_, response, List.mem_singleton.mp hline⟩
  · rw [List.flatten_singleton]

theorem afterLine_frame (stream : CallStream) (line : List Char) :
    (afterLine stream line).2.bytesIn = stream.bytesIn + Utf8.size line ∧ (afterLine stream line).2.bytesOut = stream.bytesOut ∧
      (afterLine stream line).2.cancelled = stream.cancelled := by
  unfold afterLine
  split <;> exact ⟨rfl, rfl, rfl⟩

variable (settings shared) in
/-- A call at the head of its stream takes the next line, or waits for it. -/
theorem serves_of_receiving (hopen : conn.IsOpen missing pending.flatten) (hphase : conn.phase = .serving call) (hsuits : call.call.Suits method)
    {shape : Shape} (hcall : call.call = ⟨shape, .head⟩) (hfed : shape.IsFed) (hlive : call.stream.cancelled = false) (hended : call.stream.ended = false)
    (hpending : ∀ line ∈ pending, IsFullLine line) :
    conn.step settings shared = (conn, shared) ∨
      ∃ line rest, pending = line :: rest ∧
        Serves method conn call shared missing pending [line] rest [] (conn.step settings shared).1
          { call with
            call := afterReceive shape (some (afterLine call.stream line).1)
            stream := (afterLine call.stream line).2 } (conn.step settings shared).2 := by
  have houtcome : call.call.outcome? = none := by
    rw [hcall]
    rfl
  cases pending with
  | nil =>
    refine .inl (step_of_still settings shared hphase houtcome ?_)
    rw [hcall, step_receiving settings.limits shared hfed hlive, receive, if_neg (by simp [hended]),
      Wire.Expects.nextLine_of_nil hopen.expects hopen.inputOpen]
    rfl
  | cons line rest =>
    have hreceive := IsOpen.receive_line hopen settings.limits shared (hpending line List.mem_cons_self) hended hlive hfed
    rw [← hcall] at hreceive
    rcases hreceive with ⟨hstill, -⟩ | ⟨inbox, hstep, hopen', -⟩
    · exact .inl (step_of_still settings shared hphase houtcome hstill)
    · obtain ⟨hin, hout, hcancelled⟩ := afterLine_frame call.stream line
      have hsame : { conn.wire with inbox } = { conn.wire with inbox, outbox := conn.wire.outbox ++ Utf8.encode ([] : List (List Char)).flatten } := by simp
      rw [hsame] at hstep
      refine .inr ⟨line, rest, rfl, serves_of_step hopen hphase houtcome hsuits inbox hstep rfl hopen'.expects (List.forall_mem_nil _) ?_ hout hcancelled⟩
      rw [hin, List.flatten_singleton]

/-- The end of a call writes its response, and its entry has the counts at that time. -/
theorem step_closing (hopen : conn.IsOpen missing pending.flatten) (hphase : conn.phase = .serving call) {outcome : Except Status Reply}
    (houtcome : call.call.outcome? = some outcome) :
    ∃ event : CallEvent, (conn.step settings shared).1.phase = .idle ∧ (conn.step settings shared).1.IsOpen missing pending.flatten ∧
      (conn.step settings shared).1.wire.outbox = conn.wire.outbox ++ Utf8.encode (call.response outcome).line ∧
      (conn.step settings shared).2.log = shared.log ++ [event] ∧ event.labels = call.labels ∧ event.bytesIn = call.stream.bytesIn ∧
      event.bytesOut = call.stream.bytesOut + Utf8.size (call.response outcome).line := by
  rw [step_of_serving settings shared hphase, stepCall, houtcome]
  dsimp only
  rw [closeCall, writeLine_of_room hopen.room]
  exact ⟨_, rfl, IsOpen.same hopen rfl rfl rfl rfl, rfl, rfl, rfl, rfl, rfl⟩

end

end LoadGenerator.Connection
