import LoadGenerator.Proofs.Connection.Steps
import LoadGenerator.Proofs.Connection.Transcript
import LoadGenerator.Proofs.Message.Lines
import Mathlib.Data.List.TakeWhile

/-!
# How many responses there are

A call that is written whole has the line of its request and, where its method reads a stream, its item frames and its end frame. The call ends with one response. Where it ends at an item that the service cannot take, the frames after that item are still to be read, and the connection reads them between calls: each is answered as a line that is no request. So there is one response for each call if every item of every stream can be taken, and one more for each frame after an item that cannot.
-/

namespace LoadGenerator.Connection

open Message Service

/-! ## What is written -/

/-- A line that a connection writes. -/
inductive Outgoing where
  | frame (f : Frame)
  | response (r : Response)

def Outgoing.line : Outgoing → List Char
  | frame f => f.line
  | response r => r.line

def Outgoing.responseId? : Outgoing → Option (Option RequestId)
  | frame _ => none
  | response r => some r.id

/-- The ids of the responses, in order. -/
def responseIds (written : List Outgoing) : List (Option RequestId) := written.filterMap Outgoing.responseId?

theorem responseIds_append (written more : List Outgoing) : responseIds (written ++ more) = responseIds written ++ responseIds more :=
  List.filterMap_append

theorem responseIds_frames (frames : List Frame) : responseIds (frames.map .frame) = [] := by
  simp [responseIds, Outgoing.responseId?]

/-! ## Items of a stream -/

/-- The service can take the data of an item as a request. -/
def takes (id : Option RequestId) (data : Json) : Bool :=
  match requestOf id (Frame.item id data).line with
  | .ok (some _) => true
  | _ => false

/-- An item is a request or a failure, never the end of its stream. -/
theorem requestOf_item (id : Option RequestId) {data : Json} (hwritable : data.IsWritable) :
    (takes id data = true ∧ ∃ request, requestOf id (Frame.item id data).line = .ok (some request)) ∨
      (takes id data = false ∧ ∃ fault, requestOf id (Frame.item id data).line = .error fault) := by
  have hends : requestOf id (Frame.item id data).line ≠ .ok none := by
    rcases Nat.lt_or_ge data.depth JsonReader.depthLimit with hshallow | hdeep
    · rw [requestOf_item_of_shallow id hwritable hshallow]
      cases WorkRequest.codec.ofJson data.reread <;> simp
    · have hdata : (Frame.item id data).data.IsWritable := hwritable
      obtain ⟨e, hparse⟩ := Frame.parse_line_too_deep hdata hdeep
      rw [requestOf, hparse]
      simp
  unfold takes
  cases hrequest : requestOf id (Frame.item id data).line with
  | error fault => exact .inr ⟨rfl, fault, rfl⟩
  | ok received =>
    cases received with
    | none => exact absurd hrequest hends
    | some request => exact .inl ⟨rfl, request, rfl⟩

/-! ## Calls that are written whole -/

/-- Calls of the method read a stream. -/
def readsStream (method : String) : Bool := method == tallyMethod || method == exchangeMethod

/-- A call as its peer writes it: the line of its request, and the data of the items of its stream. -/
structure WholeCall where
  line : List Char
  request : Request
  data : List Json := []

namespace WholeCall

def lines (call : WholeCall) : List (List Char) :=
  call.line :: if readsStream call.request.method then streamLines call.request.id call.data else []

/-- The text of some calls one after another. -/
def text (calls : List WholeCall) : List Char := (calls.flatMap lines).flatten

/-- The frames after the first item that the service cannot take. -/
def leftOver (call : WholeCall) : Nat :=
  if readsStream call.request.method then (call.data.dropWhile (takes call.request.id)).length else 0

/-- The ids of all responses that the call brings about. -/
def answeredIds (call : WholeCall) : List (Option RequestId) := call.request.id :: List.replicate call.leftOver none

structure IsProper (call : WholeCall) : Prop where
  full : IsFullLine call.line
  opens : Opens call.line call.request
  writable : ∀ item ∈ call.data, item.IsWritable

end WholeCall

/-! ## Where a connection stands -/

/-- The lines that are still to be read in a phase, and the ids of the responses that are still to be written. -/
inductive Position : Phase → List (List Char) → List (Option RequestId) → Prop where
  | idle (left : List (List Char)) (calls : List WholeCall) (hleft : ∀ line ∈ left, IsLeftOver line)
      (hcalls : ∀ call ∈ calls, call.IsProper) :
      Position .idle (left ++ calls.flatMap WholeCall.lines)
        (List.replicate left.length none ++ calls.flatMap WholeCall.answeredIds)
  /-- A call that reads no more of its stream. -/
  | alone (call : OpenCall) (left : List (List Char)) (calls : List WholeCall) (hleft : ∀ line ∈ left, IsLeftOver line)
      (hcalls : ∀ call ∈ calls, call.IsProper)
      (hcall : call.call.outcome?.isSome = true ∨ ∃ method, call.call.Suits method ∧ readsStream method = false) :
      Position (.serving call) (left ++ calls.flatMap WholeCall.lines)
        (call.stream.id :: (List.replicate left.length none ++ calls.flatMap WholeCall.answeredIds))
  /-- A call within its stream. -/
  | streaming (call : OpenCall) (data : List Json) (calls : List WholeCall) (hdata : ∀ item ∈ data, item.IsWritable)
      (hcalls : ∀ call ∈ calls, call.IsProper) (hopen : call.stream.ended = false) (hlive : call.stream.cancelled = false)
      (hrunning : call.call.outcome? = none)
      (hshape : (∃ summary, call.call.shape = .tally summary ∧ ∀ response, call.call.stage ≠ .sending response) ∨ call.call.shape = .exchange) :
      Position (.serving call) (streamLines call.stream.id data ++ calls.flatMap WholeCall.lines)
        (call.stream.id ::
          (List.replicate (data.dropWhile (takes call.stream.id)).length none ++ calls.flatMap WholeCall.answeredIds))

/-- A connection that has written some lines of all that it is to write. -/
structure Answers (conn : Connection) (missing : List UInt8) (ids : List (Option RequestId)) (written : List Outgoing)
    (pending : List (List Char)) (toCome : List (Option RequestId)) : Prop where
  opened : conn.IsOpen missing pending.flatten
  position : Position conn.phase pending toCome
  outbox_eq : conn.wire.outbox = Utf8.encode (written.flatMap Outgoing.line)
  ids_eq : responseIds written ++ toCome = ids

/-- What a step has brought: it leads on, or nothing has changed since a line is not all there or all is done. -/
def LeadsOn (conn next : Connection) (missing : List UInt8) (toCome : List (Option RequestId)) : Prop :=
  next.distance < conn.distance ∨ next = conn ∧ (missing ≠ [] ∨ toCome = [] ∧ conn.phase = .idle)

/-- A step writes what is to be written next, and leads on until all is done. -/
def Proceeds (settings : Settings) (shared : Shared) (conn : Connection) (missing : List UInt8) (ids toCome : List (Option RequestId)) : Prop :=
  ∃ written pending toCome', Answers (conn.step settings shared).1 missing ids written pending toCome' ∧
    LeadsOn conn (conn.step settings shared).1 missing toCome

section

variable {conn next : Connection} {missing : List UInt8} {ids toCome toCome' : List (Option RequestId)} {written : List Outgoing}
  {pending pending' : List (List Char)}

theorem distance_lt_of_weight (hlive : conn.shutdown = false) (hnext : next.shutdown = false)
    (hinbox : next.wire.inbox = conn.wire.inbox) (hweight : next.weight < conn.weight) : next.distance < conn.distance := by
  rw [distance_of_live hlive, distance_of_live hnext, hinbox]
  omega

theorem distance_lt_of_inbox (hlive : conn.shutdown = false) (hnext : next.shutdown = false)
    (hinbox : next.wire.inbox.length < conn.wire.inbox.length) (hweight : next.weight < 4294967303) : next.distance < conn.distance := by
  rw [distance_of_live hlive, distance_of_live hnext]
  have hlines : (next.wire.inbox.length + 1) * 4294967303 ≤ conn.wire.inbox.length * 4294967303 := Nat.mul_le_mul_right _ hinbox
  omega

variable (settings : Settings) (shared : Shared)

/-- A step that writes what is to be written next and comes nearer to the end. -/
theorem Answers.proceeds (h : Answers conn missing ids written pending toCome) {shared' : Shared}
    (hstep : conn.step settings shared = (next, shared')) (more : List Outgoing) (hopened : next.IsOpen missing pending'.flatten)
    (hposition : Position next.phase pending' toCome')
    (houtbox : next.wire.outbox = conn.wire.outbox ++ Utf8.encode (more.flatMap Outgoing.line))
    (hids : toCome = responseIds more ++ toCome') (hless : next.distance < conn.distance) :
    Proceeds settings shared conn missing ids toCome := by
  rw [Proceeds, hstep]
  refine ⟨written ++ more, pending', toCome', ⟨hopened, hposition, ?_, ?_⟩, .inl hless⟩
  · rw [houtbox, h.outbox_eq, ← Utf8.encode_append, ← List.flatMap_append]
  · rw [← h.ids_eq, hids, responseIds_append, List.append_assoc]

theorem Answers.waits (h : Answers conn missing ids written pending toCome) (hstep : conn.step settings shared = (conn, shared))
    (hmissing : missing ≠ []) : Proceeds settings shared conn missing ids toCome := by
  rw [Proceeds, hstep]
  exact ⟨written, pending, toCome, h, .inr ⟨rfl, .inl hmissing⟩⟩

/-! ## Steps between calls -/

private theorem Answers.step_left {line : List Char} {left : List (List Char)} {calls : List WholeCall}
    (h : Answers conn missing ids written ((line :: left) ++ calls.flatMap WholeCall.lines)
      (List.replicate (line :: left).length none ++ calls.flatMap WholeCall.answeredIds))
    (hphase : conn.phase = .idle) (hleft : ∀ other ∈ line :: left, IsLeftOver other) (hcalls : ∀ call ∈ calls, call.IsProper) :
    Proceeds settings shared conn missing ids (List.replicate (line :: left).length none ++ calls.flatMap WholeCall.answeredIds) := by
  obtain ⟨hfull, e, hparse⟩ := hleft line (by simp)
  have hopened := h.opened
  rw [List.cons_append, List.flatten_cons] at hopened
  rcases hopened.step_idle settings shared hphase hfull with ⟨hstep, hmissing⟩ | ⟨inbox, hstep, hnext, hshorter⟩
  · exact h.waits settings shared hstep hmissing
  · rw [takeLine_of_unreadable settings shared hfull.visible hparse, reject_of_room hnext.room] at hstep
    refine h.proceeds settings shared hstep [.response (unreadableResponse e)] (hnext.same rfl rfl rfl rfl)
      (.idle left calls (fun other hother => hleft other (by simp [hother])) hcalls) (by simp [Outgoing.line]) rfl ?_
    exact distance_lt_of_inbox h.opened.live hnext.live hshorter (by simp [weight])

private theorem Answers.step_call {call : WholeCall} {calls : List WholeCall}
    (h : Answers conn missing ids written ((call :: calls).flatMap WholeCall.lines) ((call :: calls).flatMap WholeCall.answeredIds))
    (hphase : conn.phase = .idle) (hcalls : ∀ other ∈ call :: calls, other.IsProper) :
    Proceeds settings shared conn missing ids ((call :: calls).flatMap WholeCall.answeredIds) := by
  obtain ⟨hfull, hopens, hwritable⟩ := hcalls call (by simp)
  have hlater : ∀ other ∈ calls, other.IsProper := fun other hother => hcalls other (by simp [hother])
  have hopened := h.opened
  rw [List.flatMap_cons, WholeCall.lines, List.cons_append, List.flatten_cons] at hopened
  rcases hopened.step_idle settings shared hphase hfull with ⟨hstep, hmissing⟩ | ⟨inbox, hstep, hnext, hshorter⟩
  · exact h.waits settings shared hstep hmissing
  · obtain ⟨-, -, -, hweight⟩ := takeLine_frame settings shared { conn with wire := { conn.wire with inbox } } hnext.room hphase call.line
    rw [takeLine_of_opens settings shared hopens] at hweight hstep
    have hsuits := (openCall_suits settings call.request.method call.request.params).1
    have hids : (call :: calls).flatMap WholeCall.answeredIds =
        responseIds [] ++ (call.request.id :: (List.replicate call.leftOver none ++ calls.flatMap WholeCall.answeredIds)) := rfl
    refine h.proceeds settings shared hstep [] (hnext.same rfl rfl rfl rfl) ?_ (by simp) hids
      (distance_lt_of_inbox h.opened.live hnext.live hshorter (Nat.lt_succ_of_lt hweight))
    rw [WholeCall.leftOver]
    cases hreads : readsStream call.request.method with
    | false =>
      rw [if_neg Bool.false_ne_true, if_neg Bool.false_ne_true]
      exact .alone _ [] calls nofun hlater (.inr ⟨_, hsuits, hreads⟩)
    | true =>
      rw [if_pos rfl, if_pos rfl]
      rw [readsStream, Bool.or_eq_true, beq_iff_eq, beq_iff_eq] at hreads
      have hcall : Service.openCall settings call.request.method call.request.params = .tally ∨
          Service.openCall settings call.request.method call.request.params = .exchange := by
        rcases hreads with hmethod | hmethod
        · rw [hmethod]
          exact .inl rfl
        · rw [hmethod]
          exact .inr rfl
      refine .streaming (OpenCall.ofRequest settings call.request _ _ _) call.data calls hwritable hlater rfl rfl ?_ ?_
      · rcases hcall with hcall | hcall <;> simp [OpenCall.ofRequest, hcall, Call.outcome?, Call.tally, Call.exchange]
      · rcases hcall with hcall | hcall
        · exact .inl ⟨{}, by simp [OpenCall.ofRequest, hcall, Call.tally], by simp [OpenCall.ofRequest, hcall, Call.tally]⟩
        · exact .inr (by simp [OpenCall.ofRequest, hcall, Call.exchange])

/-! ## Steps of a call -/

theorem OpenCall.response_id (call : OpenCall) (outcome : Except Status Reply) : (call.response outcome).id = call.stream.id := by
  cases outcome <;> rfl

variable {call : OpenCall}

private theorem Answers.step_alone {left : List (List Char)} {calls : List WholeCall}
    (h : Answers conn missing ids written (left ++ calls.flatMap WholeCall.lines)
      (call.stream.id :: (List.replicate left.length none ++ calls.flatMap WholeCall.answeredIds)))
    (hphase : conn.phase = .serving call) (hleft : ∀ other ∈ left, IsLeftOver other) (hcalls : ∀ call ∈ calls, call.IsProper)
    (hcall : call.call.outcome?.isSome = true ∨ ∃ method, call.call.Suits method ∧ readsStream method = false) :
    Proceeds settings shared conn missing ids
      (call.stream.id :: (List.replicate left.length none ++ calls.flatMap WholeCall.answeredIds)) := by
  cases houtcome : call.call.outcome? with
  | some outcome =>
    obtain ⟨shared', hstep, -⟩ := h.opened.step_ended settings shared hphase houtcome
    have hids : call.stream.id :: (List.replicate left.length none ++ calls.flatMap WholeCall.answeredIds) =
        responseIds [.response (call.response outcome)] ++ (List.replicate left.length none ++ calls.flatMap WholeCall.answeredIds) := by
      rw [← call.response_id outcome]
      rfl
    refine h.proceeds settings shared hstep [.response (call.response outcome)] (h.opened.same rfl rfl rfl rfl)
      (.idle left calls hleft hcalls) (by simp [Outgoing.line]) hids (distance_lt_of_weight h.opened.live h.opened.live rfl ?_)
    rw [weight_of_idle rfl, weight_of_serving hphase]
    omega
  | none =>
    obtain ⟨method, hsuits, hreads⟩ := hcall.resolve_left (by simp [houtcome])
    rw [readsStream, Bool.or_eq_false_iff, beq_eq_false_iff_ne, beq_eq_false_iff_ne] at hreads
    obtain ⟨act, nextCall, shared', stream', frames, hcallStep, hnextSuits, hid, hweight⟩ :=
      Connection.step_alone settings.limits shared hsuits hreads.1 hreads.2 houtcome h.opened.room
    have hstep := step_serving settings shared hphase houtcome (congrArg Prod.snd hcallStep)
    have hids : call.stream.id :: (List.replicate left.length none ++ calls.flatMap WholeCall.answeredIds) =
        responseIds (frames.map .frame) ++
          (stream'.id :: (List.replicate left.length none ++ calls.flatMap WholeCall.answeredIds)) := by
      rw [responseIds_frames, hid, List.nil_append]
    have hmethod : readsStream method = false := by
      rw [readsStream, Bool.or_eq_false_iff, beq_eq_false_iff_ne, beq_eq_false_iff_ne]
      exact hreads
    refine h.proceeds settings shared hstep (frames.map .frame) (h.opened.same rfl rfl rfl rfl)
      (.alone { call with call := nextCall, stream := stream' } left calls hleft hcalls (.inr ⟨method, hnextSuits, hmethod⟩)) ?_ hids
      (distance_lt_of_weight h.opened.live h.opened.live rfl ?_)
    · rw [List.flatMap_map]
      rfl
    · rw [weight_of_serving hphase, weight_of_serving rfl]
      exact Nat.add_lt_add_right hweight 2

private theorem position_finish (shape : Shape) {calls : List WholeCall} (hcalls : ∀ call ∈ calls, call.IsProper) :
    Position (.serving { call with
        call := afterReceive shape (some (afterLine call.stream (Frame.finish call.stream.id).line).1)
        stream := (afterLine call.stream (Frame.finish call.stream.id).line).2 })
      (calls.flatMap WholeCall.lines)
      (call.stream.id :: (List.replicate (([] : List Json).dropWhile (takes call.stream.id)).length none ++
        calls.flatMap WholeCall.answeredIds)) := by
  have hline : afterLine call.stream (Frame.finish call.stream.id).line =
      (.ok none, { call.stream with
        bytesIn := call.stream.bytesIn + Utf8.size (Frame.finish call.stream.id).line, ended := true }) := by
    rw [afterLine, requestOf_finish]
  rw [hline]
  exact .alone _ [] calls (fun _ h => by cases h) hcalls (.inl rfl)

/-- Where a call stands after an item of its stream: at its request, or at its end with the other frames left over. -/
private theorem position_item {shape : Shape} (hshape : (∃ summary, shape = .tally summary) ∨ shape = .exchange) {item : Json}
    {data : List Json} (hdata : ∀ other ∈ item :: data, other.IsWritable) {calls : List WholeCall} (hcalls : ∀ call ∈ calls, call.IsProper)
    (hopen : call.stream.ended = false) (hlive : call.stream.cancelled = false) :
    Position (.serving { call with
        call := afterReceive shape (some (afterLine call.stream (Frame.item call.stream.id item).line).1)
        stream := (afterLine call.stream (Frame.item call.stream.id item).line).2 })
      (streamLines call.stream.id data ++ calls.flatMap WholeCall.lines)
      (call.stream.id :: (List.replicate ((item :: data).dropWhile (takes call.stream.id)).length none ++
        calls.flatMap WholeCall.answeredIds)) := by
  obtain ⟨hitem, hlater⟩ := List.forall_mem_cons.mp hdata
  rcases requestOf_item call.stream.id hitem with ⟨htakes, request, hrequest⟩ | ⟨htakes, fault, hfault⟩
  · have hline : afterLine call.stream (Frame.item call.stream.id item).line =
        (.ok (some request), { call.stream with
          bytesIn := call.stream.bytesIn + Utf8.size (Frame.item call.stream.id item).line }) := by
      rw [afterLine, hrequest]
    rw [hline, List.dropWhile_cons_of_pos htakes]
    refine .streaming _ data calls hlater hcalls hopen hlive rfl ?_
    rcases hshape with ⟨summary, rfl⟩ | rfl
    · exact .inl ⟨summary, rfl, fun _ h => by cases h⟩
    · exact .inr rfl
  · have hline : afterLine call.stream (Frame.item call.stream.id item).line =
        (.error fault.toStatus, { call.stream with
          bytesIn := call.stream.bytesIn + Utf8.size (Frame.item call.stream.id item).line }) := by
      rw [afterLine, hfault]
    have hcount : ((item :: data).dropWhile (takes call.stream.id)).length = (streamLines call.stream.id data).length := by
      rw [List.dropWhile_cons_of_neg (by simp [htakes]), streamLines, List.length_append, List.length_map]
      rfl
    rw [hline, hcount]
    exact .alone _ _ calls (isLeftOver_streamLines call.stream.id hlater) hcalls (.inl rfl)

/-- A call at the head of its loop that expects a line. -/
private theorem Answers.step_receiving {line : List Char} {rest : List (List Char)}
    (h : Answers conn missing ids written (line :: rest) toCome) (hphase : conn.phase = .serving call)
    (hopen : call.stream.ended = false) (hlive : call.stream.cancelled = false) {shape : Shape} (hcall : call.call = ⟨shape, .head⟩)
    (hshape : (∃ summary, shape = .tally summary) ∨ shape = .exchange) (hline : IsFullLine line)
    (hposition : Position (.serving { call with
        call := afterReceive shape (some (afterLine call.stream line).1), stream := (afterLine call.stream line).2 }) rest toCome) :
    Proceeds settings shared conn missing ids toCome := by
  have hrunning : call.call.outcome? = none := by
    rw [hcall]
    rfl
  have hleft : shape.left = 0 := by
    rcases hshape with ⟨summary, rfl⟩ | rfl <;> rfl
  have hreceive := h.opened.receive_line settings.limits shared hline hopen hlive hshape
  rw [← hcall] at hreceive
  rcases hreceive with ⟨hstill, hmissing⟩ | ⟨inbox, hstep, hnext, hshorter⟩
  · exact h.waits settings shared (step_of_still settings shared hphase hrunning hstill) hmissing
  · refine h.proceeds settings shared (step_serving settings shared hphase hrunning hstep) [] (hnext.same rfl rfl rfl rfl) hposition
      (by simp) rfl (distance_lt_of_inbox h.opened.live h.opened.live hshorter ?_)
    have hweight := afterReceive_weight_lt hleft (some (afterLine call.stream line).1)
    rw [weight_of_serving rfl]
    dsimp only
    omega

private theorem Answers.step_head {data : List Json} {calls : List WholeCall}
    (h : Answers conn missing ids written (streamLines call.stream.id data ++ calls.flatMap WholeCall.lines)
      (call.stream.id ::
        (List.replicate (data.dropWhile (takes call.stream.id)).length none ++ calls.flatMap WholeCall.answeredIds)))
    (hphase : conn.phase = .serving call) (hdata : ∀ item ∈ data, item.IsWritable) (hcalls : ∀ call ∈ calls, call.IsProper)
    (hopen : call.stream.ended = false) (hlive : call.stream.cancelled = false) {shape : Shape} (hcall : call.call = ⟨shape, .head⟩)
    (hshape : (∃ summary, shape = .tally summary) ∨ shape = .exchange) :
    Proceeds settings shared conn missing ids
      (call.stream.id ::
        (List.replicate (data.dropWhile (takes call.stream.id)).length none ++ calls.flatMap WholeCall.answeredIds)) := by
  cases data with
  | nil =>
    have hline : IsFullLine (Frame.finish call.stream.id).line := isFullLine_lineOf Frame.record (.finish call.stream.id)
    exact h.step_receiving settings shared hphase hopen hlive hcall hshape hline (position_finish shape hcalls)
  | cons item data =>
    have hline : IsFullLine (Frame.item call.stream.id item).line := isFullLine_lineOf Frame.record (.item call.stream.id item)
    exact h.step_receiving settings shared hphase hopen hlive hcall hshape hline (position_item hshape hdata hcalls hopen hlive)

/-- A call within its stream that does not receive. -/
private theorem Answers.step_within {data : List Json} {calls : List WholeCall}
    (h : Answers conn missing ids written (streamLines call.stream.id data ++ calls.flatMap WholeCall.lines)
      (call.stream.id ::
        (List.replicate (data.dropWhile (takes call.stream.id)).length none ++ calls.flatMap WholeCall.answeredIds)))
    (hphase : conn.phase = .serving call) (hdata : ∀ item ∈ data, item.IsWritable) (hcalls : ∀ call ∈ calls, call.IsProper)
    (hopen : call.stream.ended = false) (hlive : call.stream.cancelled = false) (hrunning : call.call.outcome? = none)
    {next : Call} {shared' : Shared} {frames : List Frame} {stream' : CallStream}
    (hstep : (call.call.step peer settings.limits shared (conn.wire, call.stream)).2 =
      (next, shared', { conn.wire with outbox := conn.wire.outbox ++ Utf8.encode (frames.flatMap Frame.line) }, stream'))
    (hstream : stream'.id = call.stream.id ∧ stream'.ended = call.stream.ended ∧ stream'.cancelled = call.stream.cancelled)
    (hnext : next.outcome? = none)
    (hshape : (∃ summary, next.shape = .tally summary ∧ ∀ response, next.stage ≠ .sending response) ∨ next.shape = .exchange)
    (hweight : next.weight < call.call.weight) :
    Proceeds settings shared conn missing ids
      (call.stream.id ::
        (List.replicate (data.dropWhile (takes call.stream.id)).length none ++ calls.flatMap WholeCall.answeredIds)) := by
  obtain ⟨hid, hended, hcancelled⟩ := hstream
  have hposition := Position.streaming { call with call := next, stream := stream' } data calls hdata hcalls (hended.trans hopen)
    (hcancelled.trans hlive) hnext hshape
  dsimp only at hposition
  rw [hid] at hposition
  refine h.proceeds settings shared (step_serving settings shared hphase hrunning hstep) (frames.map .frame) (h.opened.same rfl rfl rfl rfl)
    hposition ?_ (by rw [responseIds_frames, List.nil_append]) (distance_lt_of_weight h.opened.live h.opened.live rfl ?_)
  · rw [List.flatMap_map]
    rfl
  · rw [weight_of_serving hphase, weight_of_serving rfl]
    exact Nat.add_lt_add_right hweight 2

private theorem Answers.step_streaming {data : List Json} {calls : List WholeCall}
    (h : Answers conn missing ids written (streamLines call.stream.id data ++ calls.flatMap WholeCall.lines)
      (call.stream.id ::
        (List.replicate (data.dropWhile (takes call.stream.id)).length none ++ calls.flatMap WholeCall.answeredIds)))
    (hphase : conn.phase = .serving call) (hdata : ∀ item ∈ data, item.IsWritable) (hcalls : ∀ call ∈ calls, call.IsProper)
    (hopen : call.stream.ended = false) (hlive : call.stream.cancelled = false) (hrunning : call.call.outcome? = none)
    (hshape : (∃ summary, call.call.shape = .tally summary ∧ ∀ response, call.call.stage ≠ .sending response) ∨ call.call.shape = .exchange) :
    Proceeds settings shared conn missing ids
      (call.stream.id ::
        (List.replicate (data.dropWhile (takes call.stream.id)).length none ++ calls.flatMap WholeCall.answeredIds)) := by
  have hsame : { conn.wire with outbox := conn.wire.outbox ++ Utf8.encode ([].flatMap Frame.line) } = conn.wire := by simp
  rcases hcall : call.call with ⟨shape, stage⟩
  rw [hcall] at hrunning hshape
  have hwithin := h.step_within settings shared hphase hdata hcalls hopen hlive
  rw [hcall] at hwithin
  cases stage with
  | ended outcome => cases hrunning
  | head =>
    refine h.step_head settings shared hphase hdata hcalls hopen hlive hcall ?_
    rcases hshape with ⟨summary, hshape, -⟩ | hshape
    · exact .inl ⟨summary, hshape⟩
    · exact .inr hshape
  | running request =>
    rcases hshape with ⟨summary, hshape, -⟩ | hshape
    · obtain rfl : shape = .tally summary := hshape
      have hstep : (Call.step peer settings.limits ⟨.tally summary, .running request⟩ shared (conn.wire, call.stream)).2 =
          (⟨.tally (tallyItem summary request (runItem settings.limits shared request).1), .head⟩,
            (runItem settings.limits shared request).2,
            { conn.wire with outbox := conn.wire.outbox ++ Utf8.encode (([] : List Frame).flatMap Frame.line) }, call.stream) := by
        rw [hsame]
        rfl
      exact hwithin hrunning hstep ⟨rfl, rfl, rfl⟩ rfl (.inl ⟨_, rfl, nofun⟩) (by simp [Call.weight, Shape.left])
    · obtain rfl : shape = .exchange := hshape
      have hstep : (Call.step peer settings.limits ⟨.exchange, .running request⟩ shared (conn.wire, call.stream)).2 =
          (⟨.exchange, .sending (runItem settings.limits shared request).1⟩,
            (runItem settings.limits shared request).2,
            { conn.wire with outbox := conn.wire.outbox ++ Utf8.encode (([] : List Frame).flatMap Frame.line) }, call.stream) := by
        rw [hsame]
        rfl
      exact hwithin hrunning hstep ⟨rfl, rfl, rfl⟩ rfl (.inr rfl) (by simp [Call.weight, Shape.left])
  | sending response =>
    rcases hshape with ⟨summary, -, hstage⟩ | hshape
    · exact absurd rfl (hstage response)
    · obtain rfl : shape = .exchange := hshape
      have hstep : (Call.step peer settings.limits ⟨.exchange, .sending response⟩ shared (conn.wire, call.stream)).2 =
          (⟨.exchange, .head⟩, shared,
            { conn.wire with
              outbox := conn.wire.outbox ++
                Utf8.encode ([Frame.item call.stream.id (WorkResponse.codec.toJson response)].flatMap Frame.line) },
            { call.stream with
              bytesOut := call.stream.bytesOut +
                Utf8.size (Frame.item call.stream.id (WorkResponse.codec.toJson response)).line }) := by
        simp only [Call.step, peer, send_of_room h.opened.room, List.flatMap_singleton]
      exact hwithin hrunning hstep ⟨rfl, rfl, rfl⟩ rfl (.inr rfl) (by simp [Call.weight, Shape.left])

theorem Answers.step (h : Answers conn missing ids written pending toCome) : Proceeds settings shared conn missing ids toCome := by
  have hposition := h.position
  generalize hphase : conn.phase = phase at hposition
  cases hposition with
  | idle left calls hleft hcalls =>
    cases left with
    | cons line left => exact h.step_left settings shared hphase hleft hcalls
    | nil =>
      cases calls with
      | cons call calls => exact h.step_call settings shared hphase hcalls
      | nil =>
        rw [Proceeds, h.opened.step_idle_nil settings shared hphase]
        exact ⟨_, _, _, h, .inr ⟨rfl, .inr ⟨rfl, hphase⟩⟩⟩
  | alone call left calls hleft hcalls hcall => exact h.step_alone settings shared hphase hleft hcalls hcall
  | streaming call data calls hdata hcalls hopen hlive hrunning hshape =>
    exact h.step_streaming settings shared hphase hdata hcalls hopen hlive hrunning hshape

/-! ## Runs -/

/-- Looking out for the peer changes nothing while the peer has not hung up. -/
theorem Answers.watch (h : Answers conn missing ids written pending toCome) : Answers conn.watch missing ids written pending toCome := by
  rcases watch_of_open h.opened.inputOpen with hstill | ⟨call, hphase, hstops⟩
  · rw [hstill]
    exact h
  · rw [hstops]
    have hposition := h.position
    rw [hphase] at hposition
    refine ⟨h.opened.same rfl rfl rfl rfl, ?_, h.outbox_eq, h.ids_eq⟩
    cases hposition with
    | alone _ left calls hleft hcalls hcall => exact .alone { call with watching := false } left calls hleft hcalls hcall
    | streaming _ data calls hdata hcalls hopen hlive hrunning hshape =>
      exact .streaming { call with watching := false } data calls hdata hcalls hopen hlive hrunning hshape

theorem Answers.deliver {bytes : List UInt8} (h : Answers conn (bytes ++ missing) ids written pending toCome) :
    Answers { conn with wire := conn.wire.deliver bytes } missing ids written pending toCome :=
  ⟨h.opened.deliver, h.position, h.outbox_eq, h.ids_eq⟩

theorem flatMap_answeredIds_eq_nil {calls : List WholeCall} (h : calls.flatMap WholeCall.answeredIds = []) : calls = [] := by
  cases calls with
  | nil => rfl
  | cons call calls => cases h

theorem Answers.distance_of_done (h : Answers conn [] ids written pending []) (hphase : conn.phase = .idle) : conn.distance = 1 := by
  have hposition := h.position
  rw [hphase] at hposition
  have hpending : pending = [] := by
    generalize htoCome : ([] : List (Option RequestId)) = toCome at hposition
    cases hposition with
    | idle left calls hleft hcalls =>
      obtain ⟨hnone, hanswered⟩ := List.append_eq_nil_iff.mp htoCome.symm
      rw [List.replicate_eq_nil_iff, List.length_eq_zero_iff] at hnone
      rw [hnone, flatMap_answeredIds_eq_nil hanswered]
      rfl
  have hbytes := h.opened.expects.bytes
  rw [hpending, List.append_nil] at hbytes
  rw [distance_of_live h.opened.live, weight_of_idle hphase, hbytes]
  rfl

/-- A connection that is as near to the end as can be has answered all that has arrived. -/
theorem Answers.done_of_distance (h : Answers conn [] ids written pending toCome) (hdistance : conn.distance ≤ 1) :
    conn.phase = .idle ∧ pending = [] ∧ toCome = [] := by
  rw [distance_of_live h.opened.live] at hdistance
  have hposition := h.position
  generalize hphase : conn.phase = phase at hposition
  cases hposition with
  | alone call left calls hleft hcalls hcall =>
    rw [weight_of_serving hphase] at hdistance
    omega
  | streaming call data calls hdata hcalls hopen hlive hrunning hshape =>
    rw [weight_of_serving hphase] at hdistance
    omega
  | idle left calls hleft hcalls =>
    have hinbox : conn.wire.inbox = [] := List.length_eq_zero_iff.mp (by omega)
    have hbytes := h.opened.expects.bytes
    rw [hinbox, List.append_nil, eq_comm, Utf8.encode_eq_nil_iff, List.flatten_eq_nil_iff] at hbytes
    have hfull : ∀ line, IsFullLine line → line ≠ [] := by
      rintro _ ⟨⟨body, -, rfl⟩, -⟩
      simp
    have hleftNil : left = [] := by
      cases left with
      | nil => rfl
      | cons line left => exact absurd (hbytes line (by simp)) (hfull line (hleft line (by simp)).full)
    have hcallsNil : calls = [] := by
      cases calls with
      | nil => rfl
      | cons call calls => exact absurd (hbytes call.line (by simp [WholeCall.lines])) (hfull call.line (hcalls call (by simp)).full)
    subst hleftNil hcallsNil
    exact ⟨rfl, rfl, rfl⟩

theorem Answers.step_arrived (h : Answers conn [] ids written pending toCome) :
    ∃ written' pending' toCome', Answers (conn.step settings shared).1 [] ids written' pending' toCome' ∧
      (conn.step settings shared).1.distance ≤ max 1 (conn.distance - 1) := by
  obtain ⟨written', pending', toCome', hanswers, hleads⟩ := h.step settings shared
  refine ⟨written', pending', toCome', hanswers, ?_⟩
  rcases hleads with hless | ⟨hsame, hmissing | ⟨rfl, hphase⟩⟩
  · omega
  · exact absurd rfl hmissing
  · rw [hsame, h.distance_of_done hphase]
    exact le_max_left _ _

/-- A sequence of events that neither ends the input nor shuts down. -/
theorem Answers.applyAll {events : List ConnectionEvent} {last : List UInt8} (hall : BringsAll missing events last)
    (hinput : .hangUp ∉ events) (hlive : .shutdown ∉ events) :
    ∀ {conn : Connection} {written : List Outgoing} {pending : List (List Char)} {toCome : List (Option RequestId)} (shared : Shared),
      Answers conn missing ids written pending toCome →
      ∃ written' pending' toCome', Answers (conn.applyAll settings shared events).1 last ids written' pending' toCome' ∧
        (missing = [] → last = [] ∧ (conn.applyAll settings shared events).1.distance ≤ max 1 (conn.distance - events.count .step)) := by
  induction hall with
  | nil missing =>
    intro conn written pending toCome shared h
    exact ⟨written, pending, toCome, h, fun hmissing => ⟨hmissing, le_max_right _ _⟩⟩
  | @cons missing later last event events hevent _ ih =>
    intro conn written pending toCome shared h
    have hinput' : .hangUp ∉ events := fun hmem => hinput (by simp [hmem])
    have hlive' : .shutdown ∉ events := fun hmem => hlive (by simp [hmem])
    have hnext : ∃ written' pending' toCome', Answers (conn.apply settings shared event).1 later ids written' pending' toCome' ∧
        (missing = [] → later = [] ∧
          (conn.apply settings shared event).1.distance ≤ max 1 (conn.distance - [event].count .step)) := by
      cases hevent with
      | hangUp => simp at hinput
      | shutdown => simp at hlive
      | deliver bytes =>
        refine ⟨_, _, _, h.deliver, fun hmissing => ?_⟩
        obtain ⟨hbytes, hlater⟩ := List.append_eq_nil_iff.mp hmissing
        refine ⟨hlater, ?_⟩
        have hsame : ({ conn with wire := conn.wire.deliver bytes } : Connection).distance ≤ conn.distance :=
          distance_of_frame (by simp [Wire.deliver, hbytes]) rfl rfl
        exact le_max_of_le_right hsame
      | watch =>
        obtain ⟨hwire, hshutdown, hweight⟩ := watch_frame conn
        refine ⟨_, _, _, h.watch, fun hmissing => ⟨hmissing, le_max_of_le_right ?_⟩⟩
        exact distance_of_frame (congrArg Wire.inbox hwire) hshutdown hweight
      | step =>
        by_cases hmissing : missing = []
        · subst hmissing
          obtain ⟨written', pending', toCome', hanswers, hdistance⟩ := h.step_arrived settings shared
          exact ⟨written', pending', toCome', hanswers, fun _ => ⟨rfl, hdistance⟩⟩
        · obtain ⟨written', pending', toCome', hanswers, -⟩ := h.step settings shared
          exact ⟨written', pending', toCome', hanswers, fun h' => absurd h' hmissing⟩
    obtain ⟨written', pending', toCome', hanswers, hdistance⟩ := hnext
    obtain ⟨written'', pending'', toCome'', hlast, hmore⟩ := ih hinput' hlive' (conn.apply settings shared event).2 hanswers
    refine ⟨written'', pending'', toCome'', hlast, fun hmissing => ?_⟩
    obtain ⟨hlater, hfirst⟩ := hdistance hmissing
    obtain ⟨hend, hrest⟩ := hmore hlater
    refine ⟨hend, hrest.trans ?_⟩
    have hcount : (event :: events).count .step = [event].count .step + events.count .step := by
      rw [← List.count_append, List.singleton_append]
    rw [hcount]
    omega

end

/-! ## One response for each call -/

theorem WholeCall.leftOver_eq_zero_iff (call : WholeCall) :
    call.leftOver = 0 ↔ (readsStream call.request.method = true → ∀ item ∈ call.data, takes call.request.id item = true) := by
  rw [leftOver]
  split_ifs with hreads
  · rw [List.length_eq_zero_iff, List.dropWhile_eq_nil_iff]
    exact ⟨fun h _ => h, fun h => h hreads⟩
  · exact ⟨fun _ h => absurd h hreads, fun _ => rfl⟩

theorem length_answeredIds (calls : List WholeCall) :
    (calls.flatMap WholeCall.answeredIds).length = calls.length + (calls.map WholeCall.leftOver).sum := by
  induction calls with
  | nil => rfl
  | cons call calls ih =>
    rw [List.flatMap_cons, List.length_append, ih, WholeCall.answeredIds, List.length_cons, List.length_replicate, List.length_cons,
      List.map_cons, List.sum_cons]
    omega

theorem answeredIds_of_leftOver {calls : List WholeCall} (h : ∀ call ∈ calls, call.leftOver = 0) :
    calls.flatMap WholeCall.answeredIds = calls.map (·.request.id) := by
  induction calls with
  | nil => rfl
  | cons call calls ih =>
    rw [List.flatMap_cons, ih fun other hother => h other (by simp [hother]), WholeCall.answeredIds, h call (by simp)]
    rfl

/-- Calls that are written whole, over a connection that stays open: each call is answered with its id, and then once more without an id for each of its frames after an item that the service cannot take. So there is one response for each call exactly where every item of every stream can be taken. -/
theorem responses_of_calls (settings : Settings) (shared : Shared) (ids : Nat → String) (orders : Nat → MapOrder) {calls : List WholeCall}
    (hcalls : ∀ call ∈ calls, call.IsProper) {events : List ConnectionEvent}
    (hevents : BringsAll (Utf8.encode (WholeCall.text calls)) events []) (hinput : .hangUp ∉ events) (hlive : .shutdown ∉ events) :
    ∃ bound, ∀ more last, BringsAll [] more last → .hangUp ∉ more → .shutdown ∉ more → bound ≤ more.count .step →
      ∃ written : List Outgoing,
        (applyAll settings { ids, orders } shared (events ++ more)).1.phase = .idle ∧
        (applyAll settings { ids, orders } shared (events ++ more)).1.wire.inbox = [] ∧
        (applyAll settings { ids, orders } shared (events ++ more)).1.wire.outbox = Utf8.encode (written.flatMap Outgoing.line) ∧
        responseIds written = calls.flatMap (fun call => call.request.id :: List.replicate call.leftOver none) ∧
        ((responseIds written).length = calls.length ↔
          ∀ call ∈ calls, readsStream call.request.method = true → ∀ item ∈ call.data, takes call.request.id item = true) ∧
        ((responseIds written).length = calls.length → responseIds written = calls.map (·.request.id)) := by
  have hstart : Answers { ids, orders } (Utf8.encode (WholeCall.text calls)) (calls.flatMap WholeCall.answeredIds) []
      (calls.flatMap WholeCall.lines) (calls.flatMap WholeCall.answeredIds) :=
    ⟨⟨⟨⟨rfl, nofun⟩, rfl, rfl⟩, rfl⟩, .idle [] calls nofun hcalls, rfl, rfl⟩
  obtain ⟨written, pending, toCome, hmiddle, -⟩ := hstart.applyAll settings hevents hinput hlive shared
  refine ⟨(applyAll settings { ids, orders } shared events).1.distance, fun more last hmore hmoreInput hmoreLive hbound => ?_⟩
  obtain ⟨written', pending', toCome', hlast, hdistance⟩ :=
    hmiddle.applyAll settings hmore hmoreInput hmoreLive (applyAll settings { ids, orders } shared events).2
  obtain ⟨rfl, hnear⟩ := hdistance rfl
  rw [Nat.sub_eq_zero_of_le hbound] at hnear
  obtain ⟨hphase, rfl, rfl⟩ := hlast.done_of_distance hnear
  have hids : responseIds written' = calls.flatMap WholeCall.answeredIds := by rw [← hlast.ids_eq, List.append_nil]
  have hbytes := (List.append_eq_nil_iff.mp hlast.opened.expects.bytes).1
  have hone : (responseIds written').length = calls.length ↔ ∀ call ∈ calls, call.leftOver = 0 := by
    rw [hids, length_answeredIds, Nat.add_eq_left, List.sum_eq_zero_iff, List.forall_mem_map]
  rw [applyAll_append]
  refine ⟨written', hphase, hbytes, hlast.outbox_eq, hids, ?_, fun hlength => ?_⟩
  · rw [hone]
    exact forall₂_congr fun call _ => call.leftOver_eq_zero_iff
  · rw [hids, answeredIds_of_leftOver (hone.mp hlength)]

/-- A call with a stream of one item, which is no request. -/
def wordInStream : WholeCall :=
  let request := Request.new (.number 1) tallyMethod .null
  { line := request.line, request, data := [.string "x"] }

/-- One call and two responses: the end frame that the failed call has left over is answered as well. -/
theorem responses_of_calls_word_in_stream :
    ∃ bound, ∀ more last, BringsAll [] more last → .hangUp ∉ more → .shutdown ∉ more → bound ≤ more.count .step →
      ∃ written : List Outgoing,
        (applyAll { limits := .unbounded } { ids := toString } { draws := .cycle [] }
          ([.deliver (Utf8.encode (WholeCall.text [wordInStream]))] ++ more)).1.wire.outbox =
          Utf8.encode (written.flatMap Outgoing.line) ∧
        responseIds written = [some (.number 1), none] := by
  have hcalls : ∀ call ∈ [wordInStream], call.IsProper := by
    intro call hcall
    obtain rfl := List.mem_singleton.mp hcall
    refine ⟨isFullLine_lineOf Request.record _, ⟨rfl, ?_, rfl⟩, fun item hitem => ?_⟩
    · exact Request.parse_line trivial (Nat.zero_lt_succ _)
    · obtain rfl := List.mem_singleton.mp hitem
      trivial
  have hevents : BringsAll (Utf8.encode (WholeCall.text [wordInStream])) [.deliver (Utf8.encode (WholeCall.text [wordInStream]))] [] := .deliver (.nil [])
  have hleft : wordInStream.leftOver = 1 := by decide +kernel
  obtain ⟨bound, hbound⟩ := responses_of_calls { limits := .unbounded } { draws := .cycle [] } toString (fun _ => .listed) hcalls hevents (by simp) (by simp)
  refine ⟨bound, fun more last hmore hinput hlive hcount => ?_⟩
  obtain ⟨written, -, -, houtbox, hids, -⟩ := hbound more last hmore hinput hlive hcount
  refine ⟨written, houtbox, ?_⟩
  rw [hids, List.flatMap_singleton, hleft]
  rfl

end LoadGenerator.Connection
