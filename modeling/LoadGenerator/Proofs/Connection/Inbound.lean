import LoadGenerator.Proofs.Connection.Course
import LoadGenerator.Proofs.Connection.Labels
import LoadGenerator.Proofs.Connection.Responses
import LoadGenerator.Proofs.Connection.Segments
import LoadGenerator.Proofs.Service.Turns

/-!
# What a call takes of the input

A call over a stream takes its segment of the lines that follow its request and leaves the lines behind it to the next call. It runs the items of the segment one after another, and how the segment ends is how the call ends. A call of any other method takes nothing but the line of its request.
-/

namespace LoadGenerator

open Message Service

/-- The run of an item. -/
def Happening.run? : Happening → Option (WorkRequest × WorkResponse)
  | ran request response => some (request, response)
  | _ => none

/-- The bytes that an event brings. -/
def ConnectionEvent.delivered : ConnectionEvent → List UInt8
  | deliver bytes => bytes
  | _ => []

namespace Service

/-- The shape of a call over a stream after runs of its items. -/
def Shape.afterRuns (shape : Shape) (runs : List (WorkRequest × WorkResponse)) : Shape :=
  match shape with
  | .tally summary => .tally (tallyItems summary (runs.map Prod.fst) (runs.map Prod.snd))
  | shape => shape

/-- The responses that a call over a stream sends after runs of its items. -/
def Shape.answers (shape : Shape) (runs : List (WorkRequest × WorkResponse)) : List WorkResponse :=
  match shape with
  | .exchange => runs.map Prod.snd
  | _ => []

theorem Shape.afterRuns_tally_concat (summary : WorkSummary) (runs : List (WorkRequest × WorkResponse)) (request : WorkRequest)
    (response : WorkResponse) :
    (Shape.tally summary).afterRuns (runs ++ [(request, response)]) =
      .tally (tallyItem (tallyItems summary (runs.map Prod.fst) (runs.map Prod.snd)) request response) := by
  rw [afterRuns, List.map_append, List.map_append]
  exact congrArg Shape.tally (tallyItems_concat _ _ summary _ _ (by rw [List.length_map, List.length_map]))

theorem Shape.IsFed.afterRuns {shape : Shape} (h : shape.IsFed) (runs : List (WorkRequest × WorkResponse)) : (shape.afterRuns runs).IsFed := by
  rcases h with ⟨summary, rfl⟩ | rfl
  · exact isFed_tally _
  · exact isFed_exchange

/-- The response that the call has run and not sent. -/
def Call.owed (call : Call) : List WorkResponse :=
  match call.stage with
  | .sending response => [response]
  | _ => []

end Service

namespace Connection

/-! ## Calls that stay open -/

/-- A step counts where the connection does not wait for a line. -/
def effort (conn : Connection) : ConnectionEvent → Nat
  | .step => if conn.isWaiting then 0 else 1
  | _ => 0

/-- The call that is open at first still is, and nobody has shut the daemon down: the runs that were made for the call, and the steps that did not wait. The peer has sent some of the missing bytes, and others may have done anything to the books. -/
inductive Follows (settings : Settings) (conn : Connection) (missing : List UInt8) :
    List (WorkRequest × WorkResponse) → Nat → Connection → List UInt8 → Prop where
  | refl : Follows settings conn missing [] 0 conn missing
  | after {runs : List (WorkRequest × WorkResponse)} {steps : Nat} {next : Connection} {later last : List UInt8} {event : ConnectionEvent}
      (h : Follows settings conn missing runs steps next later) (shared : Shared) (hevent : Brings later event last)
      (hquiet : event ≠ .shutdown) (hopen : (next.apply settings shared event).1.openLabels?.isSome = true) :
      Follows settings conn missing (runs ++ (next.happens settings shared event).toList.filterMap Happening.run?)
        (steps + next.effort event) (next.apply settings shared event).1 last

/-- How the end of a segment ends a call that has come to this shape. -/
def outcomeOf (ending : Except StreamFault Unit) (shape : Shape) : Except Status Reply :=
  match ending with
  | .ok () => .ok (Call.streamReply shape)
  | .error fault => .error fault.toStatus

/-- A call over a stream as it begins: what the connection has written until then, the text that follows the request, and the segment in front of that text. -/
structure Inbound where
  call : OpenCall
  outbox : List UInt8
  text : List Char
  requests : List WorkRequest
  ending : Except StreamFault Unit
  rest : List (List Char)

namespace Inbound

variable (inbound : Inbound) (runs : List (WorkRequest × WorkResponse))

def outcome : Except Status Reply := outcomeOf inbound.ending (inbound.call.call.shape.afterRuns runs)

/-- The text that the call writes: its items, and its response. -/
def written : List Char :=
  (inbound.call.call.shape.answers runs).flatMap (itemLine inbound.call.stream.id) ++ (inbound.call.response (inbound.outcome runs)).line

/-- The log entry of the call, which has taken all lines but the ones behind the segment. -/
def event : CallEvent :=
  { inbound.call with
    stream := { inbound.call.stream with
      bytesIn := inbound.call.stream.bytesIn + (Utf8.size inbound.text - Utf8.size inbound.rest.flatten)
      bytesOut := inbound.call.stream.bytesOut + Utf8.size (inbound.written runs) } }.event (inbound.outcome runs)

/-- The end of the call: every item of the segment has been run, the lines behind the segment are unread, and the response follows the items. -/
structure Ends (later : List UInt8) (shared : Shared) (result : Connection × Shared) : Prop where
  requests_eq : runs.map Prod.fst = inbound.requests
  idle : result.1.phase = .idle
  unread : ∃ unread, result.1.wire.Expects later unread ∧ textLines unread = inbound.rest
  outbox_eq : result.1.wire.outbox = inbound.outbox ++ Utf8.encode (inbound.written runs)
  books : result.2 = { shared with
    metrics := shared.metrics.finish inbound.call.labels (inbound.event runs).code
    log := shared.log ++ [inbound.event runs] }

/-- The call while it is open: it has run the first items of the segment, in order, in a bounded number of steps, and only a step that finds them all run ends it. -/
structure Stands (settings : Settings) (steps : Nat) (conn : Connection) (later : List UInt8) : Prop where
  in_order : runs.map Prod.fst <+: inbound.requests
  ran : ∀ run ∈ runs, ∃ shared, run.2 = (runItem settings.limits shared run.1).1
  steps_le : steps ≤ 4 * Utf8.size inbound.text + 1
  next : ∀ shared event last, Brings later event last → event ≠ .shutdown →
    (conn.apply settings shared event).1.openLabels?.isSome = true ∨ inbound.Ends runs last shared (conn.apply settings shared event)

end Inbound

/-! ## Within a segment -/

/-- What a call has ahead of it in the lines of its stream. -/
inductive Ahead (id : Option RequestId) (ending : Except StreamFault Unit) (rest lines : List (List Char)) : Call → List WorkRequest → Prop where
  | head (shape : Shape) {left : List WorkRequest} (h : Segment id lines left ending rest) : Ahead id ending rest lines ⟨shape, .head⟩ left
  | running (shape : Shape) (request : WorkRequest) {left : List WorkRequest} (h : Segment id lines left ending rest) :
      Ahead id ending rest lines ⟨shape, .running request⟩ (request :: left)
  | sending (response : WorkResponse) {left : List WorkRequest} (h : Segment id lines left ending rest) :
      Ahead id ending rest lines ⟨.exchange, .sending response⟩ left
  | ended (shape : Shape) (hlines : lines = rest) : Ahead id ending rest lines (.finished shape (outcomeOf ending shape)) []

theorem Ahead.ended_ok {id : Option RequestId} {ending : Except StreamFault Unit} {rest lines : List (List Char)} (shape : Shape)
    (hending : ending = .ok ()) (hlines : lines = rest) :
    Ahead id ending rest lines (afterReceive shape (some (.ok none))) [] := by
  subst hending
  exact .ended shape hlines

theorem Ahead.ended_error {id : Option RequestId} {ending : Except StreamFault Unit} {rest lines : List (List Char)} (shape : Shape)
    {fault : StreamFault} (hending : ending = .error fault) (hlines : lines = rest) :
    Ahead id ending rest lines (afterReceive shape (some (.error fault.toStatus))) [] := by
  subst hending
  exact .ended shape hlines

/-- The call is open and within its segment: what it has run, sent, taken and written. -/
structure Within (settings : Settings) (inbound : Inbound) (runs : List (WorkRequest × WorkResponse)) (steps : Nat) (conn : Connection)
    (later : List UInt8) (call : Call) (stream : CallStream) (unread : List Char) (left : List WorkRequest) (sent : List WorkResponse) : Prop where
  phase : conn.phase = .serving { inbound.call with call, stream }
  live : conn.shutdown = false
  room : conn.wire.room = none
  expects : conn.wire.Expects later unread
  id_eq : stream.id = inbound.call.stream.id
  cancelled_eq : stream.cancelled = false
  reading : call.outcome? = none → stream.ended = false
  ahead : Ahead inbound.call.stream.id inbound.ending inbound.rest (textLines unread) call left
  shape_eq : call.shape = inbound.call.call.shape.afterRuns runs
  requests_eq : runs.map Prod.fst ++ left = inbound.requests
  sent_eq : sent ++ call.owed = inbound.call.call.shape.answers runs
  outbox_eq : conn.wire.outbox = inbound.outbox ++ Utf8.encode (sent.flatMap (itemLine inbound.call.stream.id))
  bytesIn_eq : stream.bytesIn + Utf8.size unread = inbound.call.stream.bytesIn + Utf8.size inbound.text
  bytesOut_eq : stream.bytesOut = inbound.call.stream.bytesOut + Utf8.size (sent.flatMap (itemLine inbound.call.stream.id))
  /-- Each step takes bytes or brings the call nearer to taking some. -/
  steps_le : steps + 4 * Utf8.size unread + call.weight ≤ 4 * Utf8.size inbound.text + 1
  ran : ∀ run ∈ runs, ∃ shared, run.2 = (runItem settings.limits shared run.1).1

/-- The call is open and within its segment, wherever it stands there. -/
def IsWithin (settings : Settings) (inbound : Inbound) (runs : List (WorkRequest × WorkResponse)) (steps : Nat) (conn : Connection)
    (later : List UInt8) : Prop :=
  ∃ call stream unread left sent, Within settings inbound runs steps conn later call stream unread left sent

section

variable {settings : Settings} {inbound : Inbound} {runs : List (WorkRequest × WorkResponse)} {steps : Nat} {conn : Connection}
  {later : List UInt8} {call : Call} {stream : CallStream} {unread : List Char} {left : List WorkRequest} {sent : List WorkResponse}
  (shared : Shared)

theorem isWaiting_of_head {call : OpenCall} {shape : Shape} (hphase : conn.phase = .serving call) (hcall : call.call = ⟨shape, .head⟩)
    (hfed : shape.IsFed) (hlive : call.stream.cancelled = false) (hended : call.stream.ended = false) (hopen : conn.wire.inputEnded = false)
    (hpart : newline ∉ conn.wire.inbox) : conn.isWaiting = true := by
  have hread : conn.wire.readLine.1 = .waiting := by
    rw [Wire.readLine, cutLine_eq_none_iff.mpr hpart, hopen]
    rfl
  rcases hfed with ⟨summary, rfl⟩ | rfl <;> simp [isWaiting, hphase, hcall, hlive, hended, hread]

theorem effort_le_one (conn : Connection) (event : ConnectionEvent) : conn.effort event ≤ 1 := by
  unfold effort
  split
  · split_ifs <;> omega
  · omega

/-- A call that takes its turn stays within its segment. -/
theorem Within.moves (h : Within settings inbound runs steps conn later call stream unread left sent) (hopen : call.outcome? = none)
    {next : Call} {shared' : Shared} {wire : Wire} {stream' : CallStream}
    (hstep : (call.step peer settings.limits shared (conn.wire, stream)).2 = (next, shared', wire, stream')) :
    conn.apply settings shared .step = ({ conn with wire, phase := .serving { inbound.call with call := next, stream := stream' } }, shared') :=
  step_serving settings shared h.phase hopen hstep

theorem IsWithin.fewer {steps' : Nat} (h : IsWithin settings inbound runs steps conn later) (hsteps : steps' ≤ steps) :
    IsWithin settings inbound runs steps' conn later := by
  obtain ⟨call, stream, unread, left, sent, h⟩ := h
  have hle := h.steps_le
  exact ⟨call, stream, unread, left, sent, { h with steps_le := by omega }⟩

theorem ran_concat (h : ∀ run ∈ runs, ∃ shared, run.2 = (runItem settings.limits shared run.1).1) (request : WorkRequest) :
    ∀ run ∈ runs ++ [(request, (runItem settings.limits shared request).1)], ∃ shared, run.2 = (runItem settings.limits shared run.1).1 := by
  intro run hrun
  rcases List.mem_append.mp hrun with hrun | hrun
  · exact h run hrun
  · obtain rfl := List.mem_singleton.mp hrun
    exact ⟨shared, rfl⟩

theorem Within.step_running (hfed : inbound.call.call.shape.IsFed) {shape : Shape} {request : WorkRequest}
    (h : Within settings inbound runs steps conn later ⟨shape, .running request⟩ stream unread left sent) :
    IsWithin settings inbound (runs ++ [(request, (runItem settings.limits shared request).1)]) (steps + 1)
      (conn.apply settings shared .step).1 later := by
  rw [h.moves shared rfl (Call.step_running settings.limits peer shared _ shape request)]
  have hran := ran_concat shared h.ran request
  have hsent : sent = inbound.call.call.shape.answers runs := (List.append_nil sent).symm.trans h.sent_eq
  have hshape : shape = inbound.call.call.shape.afterRuns runs := h.shape_eq
  have hrequests := h.requests_eq
  have hle := h.steps_le
  generalize (runItem settings.limits shared request).1 = response at hran ⊢
  cases h.ahead with
  | @running _ _ remaining hsegment =>
    obtain ⟨hahead, hshape', hsent', hweight⟩ :
        Ahead inbound.call.stream.id inbound.ending inbound.rest (textLines unread) (Call.afterRun request response shape) remaining ∧
        (Call.afterRun request response shape).shape = inbound.call.call.shape.afterRuns (runs ++ [(request, response)]) ∧
        sent ++ (Call.afterRun request response shape).owed = inbound.call.call.shape.answers (runs ++ [(request, response)]) ∧
        (Call.afterRun request response shape).weight < (Call.mk shape (.running request)).weight := by
      subst hshape hsent
      rcases hfed with ⟨summary, htally⟩ | hexchange
      · rw [htally, Shape.afterRuns_tally_concat]
        exact ⟨.head _ hsegment, rfl, rfl, Nat.lt_add_of_pos_right Nat.two_pos⟩
      · rw [hexchange]
        refine ⟨.sending _ hsegment, rfl, ?_, Nat.lt_succ_self _⟩
        simp [Shape.answers, Shape.afterRuns, Call.owed, Call.afterRun]
    exact ⟨_, stream, unread, remaining, sent, rfl, h.live, h.room, h.expects, h.id_eq, h.cancelled_eq, fun _ => h.reading rfl, hahead, hshape',
      by simpa using hrequests, hsent', h.outbox_eq, h.bytesIn_eq, h.bytesOut_eq, by omega, hran⟩

theorem Within.step_sending {shape : Shape} {response : WorkResponse}
    (h : Within settings inbound runs steps conn later ⟨shape, .sending response⟩ stream unread left sent) :
    IsWithin settings inbound runs (steps + 1) (conn.apply settings shared .step).1 later := by
  have hstep : (Call.step peer settings.limits ⟨shape, .sending response⟩ shared (conn.wire, stream)).2 =
      (⟨shape, .head⟩, shared, { conn.wire with outbox := conn.wire.outbox ++ Utf8.encode (itemLine inbound.call.stream.id response) },
        { stream with bytesOut := stream.bytesOut + Utf8.size (itemLine inbound.call.stream.id response) }) := by
    simp only [Call.step, peer, send_of_room h.room, h.id_eq]
    rfl
  rw [h.moves shared rfl hstep]
  have hle := h.steps_le
  cases h.ahead with
  | sending _ hsegment =>
    refine ⟨_, _, unread, left, sent ++ [response], rfl, h.live, h.room, ⟨h.expects.bytes, h.expects.complete⟩, h.id_eq, h.cancelled_eq,
      fun _ => h.reading rfl, .head _ hsegment, h.shape_eq, h.requests_eq, ?_, ?_, h.bytesIn_eq, ?_, ?_, h.ran⟩
    · exact (List.append_nil _).trans h.sent_eq
    · rw [List.flatMap_append, List.flatMap_singleton, Utf8.encode_append, ← List.append_assoc, ← h.outbox_eq]
    · rw [List.flatMap_append, List.flatMap_singleton, Utf8.size_append, ← Nat.add_assoc, ← h.bytesOut_eq]
    · simp only [Call.weight, Shape.left] at hle ⊢
      omega

theorem Within.isFed (hfed : inbound.call.call.shape.IsFed)
    (h : Within settings inbound runs steps conn later call stream unread left sent) : call.shape.IsFed := by
  rw [h.shape_eq]
  exact hfed.afterRuns runs

theorem left_of_isFed {shape : Shape} (hfed : shape.IsFed) : shape.left = 0 := by
  rcases hfed with ⟨summary, rfl⟩ | rfl <;> rfl

/-- A call at the head of its loop that receives stays within its segment. -/
theorem Within.receives (hfed : inbound.call.call.shape.IsFed) {shape : Shape}
    (h : Within settings inbound runs steps conn later ⟨shape, .head⟩ stream unread left sent)
    (received : Option (Except Status (Option WorkRequest))) {inbox : List UInt8} {size : Nat} {ended : Bool} {unread' : List Char}
    (hreceive : receive (conn.wire, stream) =
      (received, { conn.wire with inbox }, { stream with bytesIn := stream.bytesIn + size, ended }))
    (hexpects : Wire.Expects { conn.wire with inbox } later unread') (hsize : size + Utf8.size unread' = Utf8.size unread)
    (hahead : Ahead inbound.call.stream.id inbound.ending inbound.rest (textLines unread') (afterReceive shape received) left)
    (hended : (afterReceive shape received).outcome? = none → ended = false) {effort : Nat}
    (hweight : effort + 4 * inbox.length + (afterReceive shape received).weight ≤ 4 * conn.wire.inbox.length + 1) :
    IsWithin settings inbound runs (steps + effort) (conn.apply settings shared .step).1 later := by
  have hshape : shape.IsFed := h.isFed hfed
  have hstep : (Call.step peer settings.limits ⟨shape, .head⟩ shared (conn.wire, stream)).2 = (afterReceive shape received, shared,
      { conn.wire with inbox }, { stream with bytesIn := stream.bytesIn + size, ended }) := by
    rw [step_receiving settings.limits shared hshape h.cancelled_eq, hreceive]
  rw [h.moves shared rfl hstep]
  have hbefore := h.expects.size_eq
  have hafter : Utf8.size unread' = inbox.length + later.length := hexpects.size_eq
  have hbytes := h.bytesIn_eq
  have hle := h.steps_le
  simp only [Call.weight, left_of_isFed hshape] at hle
  refine ⟨_, _, unread', left, sent, rfl, h.live, h.room, hexpects, h.id_eq, h.cancelled_eq, hended, hahead, ?_, h.requests_eq, ?_, h.outbox_eq,
    ?_, h.bytesOut_eq, ?_, h.ran⟩
  · rw [← h.shape_eq]
    rcases received with - | - | - | - <;> rfl
  · rw [← h.sent_eq]
    rcases received with - | - | - | - <;> rfl
  · dsimp only
    omega
  · omega

/-- The line that ends the segment ends the call. -/
theorem Within.takes_last (hfed : inbound.call.call.shape.IsFed) {shape : Shape}
    (h : Within settings inbound runs steps conn later ⟨shape, .head⟩ stream unread [] sent) {front unread' : List Char} {inbox : List UInt8}
    {size : Nat} (hnext : conn.wire.nextLine = (.line front, size, { conn.wire with inbox }))
    (hexpects : Wire.Expects { conn.wire with inbox } later unread') (hsize : size + Utf8.size unread' = Utf8.size unread)
    (hshorter : inbox.length < conn.wire.inbox.length)
    (hto : requestOf inbound.call.stream.id front = inbound.ending.map fun _ => none) (hrest : textLines unread' = inbound.rest) {effort : Nat}
    (heffort : effort ≤ 1) : IsWithin settings inbound runs (steps + effort) (conn.apply settings shared .step).1 later := by
  have hended : stream.ended = false := h.reading rfl
  cases hending : inbound.ending with
  | ok _ =>
    have hreceive : receive (conn.wire, stream) =
        (some (.ok none), { conn.wire with inbox }, { stream with bytesIn := stream.bytesIn + size, ended := true }) := by
      simp only [receive, hended, hnext, Bool.false_eq_true, if_false, h.id_eq, hto, hending, Except.map]
    refine h.receives shared hfed _ hreceive hexpects hsize (.ended_ok shape hending hrest) (fun h => by cases h) ?_
    simp only [afterReceive, Call.weight, Call.finished]
    omega
  | error fault =>
    have hreceive : receive (conn.wire, stream) =
        (some (.error fault.toStatus), { conn.wire with inbox }, { stream with bytesIn := stream.bytesIn + size, ended := false }) := by
      simp only [receive, hended, hnext, Bool.false_eq_true, if_false, h.id_eq, hto, hending, Except.map]
    refine h.receives shared hfed _ hreceive hexpects hsize (.ended_error shape hending hrest) (fun _ => rfl) ?_
    simp only [afterReceive, Call.weight, Call.finished]
    omega

theorem Within.step_head (hfed : inbound.call.call.shape.IsFed) {shape : Shape}
    (h : Within settings inbound runs steps conn later ⟨shape, .head⟩ stream unread left sent) :
    IsWithin settings inbound runs (steps + conn.effort .step) (conn.apply settings shared .step).1 later := by
  have hended : stream.ended = false := h.reading rfl
  have hshape : shape.IsFed := h.isFed hfed
  have heffort := effort_le_one conn .step
  cases h.ahead with
  | head _ hsegment =>
    have hmeets := hsegment.meets h.expects
    generalize hnext : conn.wire.nextLine = reading at hmeets
    cases hmeets with
    | waiting unread' inbox size hexpects hsize hshorter hopen hpart hsegment' =>
      have hreceive : receive (conn.wire, stream) =
          (none, { conn.wire with inbox }, { stream with bytesIn := stream.bytesIn + size, ended := false }) := by
        simp only [receive, hended, hnext, Bool.false_eq_true, if_false]
      refine h.receives shared hfed none hreceive hexpects hsize (.head shape hsegment') (fun _ => rfl) ?_
      simp only [afterReceive, Call.weight, left_of_isFed hshape]
      rcases hshorter with rfl | hshorter
      · have hwaits : conn.isWaiting = true := isWaiting_of_head h.phase rfl hshape h.cancelled_eq hended hopen hpart
        simp only [effort, hwaits, if_true]
        omega
      · omega
    | ended hinput hrequests hending hrest =>
      subst hrequests
      have hnone : Wire.Expects { conn.wire with inbox := [] } later [] := ⟨h.expects.complete hinput, h.expects.complete⟩
      have hreceive : receive (conn.wire, stream) =
          (some (.ok none), { conn.wire with inbox := [] }, { stream with bytesIn := stream.bytesIn + Utf8.size unread, ended := true }) := by
        simp only [receive, hended, hnext, Bool.false_eq_true, if_false]
      refine h.receives shared hfed (some (.ok none)) hreceive hnone rfl (.ended_ok shape hending hrest.symm) (fun h => by cases h) ?_
      simp only [afterReceive, Call.weight, Call.finished, List.length_nil]
      omega
    | item front unread' inbox size request remaining hexpects hsize hshorter hrequests hto hsegment' =>
      subst hrequests
      have hreceive : receive (conn.wire, stream) =
          (some (.ok (some request)), { conn.wire with inbox }, { stream with bytesIn := stream.bytesIn + size, ended := false }) := by
        simp only [receive, hended, hnext, Bool.false_eq_true, if_false, h.id_eq, hto]
      refine h.receives shared hfed _ hreceive hexpects hsize (.running shape request hsegment') (fun _ => rfl) ?_
      simp only [afterReceive, Call.weight, left_of_isFed hshape]
      omega
    | last front unread' inbox size hexpects hsize hshorter hrequests hto hrest =>
      subst hrequests
      exact h.takes_last shared hfed hnext hexpects hsize hshorter hto hrest heffort

/-! ## Events of an open call -/

theorem Within.happens_step (h : Within settings inbound runs steps conn later call stream unread left sent) (hopen : call.outcome? = none) :
    conn.happens settings shared .step =
      (call.nextItem? stream.cancelled).map fun item => .ran item.1 (runItem settings.limits shared item.1).1 := by
  simp only [happens, h.phase, hopen]

theorem Within.step (hfed : inbound.call.call.shape.IsFed) (h : Within settings inbound runs steps conn later call stream unread left sent)
    (hopen : call.outcome? = none) :
    IsWithin settings inbound (runs ++ (conn.happens settings shared .step).toList.filterMap Happening.run?) (steps + conn.effort .step)
      (conn.apply settings shared .step).1 later := by
  have heffort : steps + conn.effort .step ≤ steps + 1 := Nat.add_le_add_left (effort_le_one conn .step) steps
  have hfed' := h.isFed hfed
  rw [h.happens_step shared hopen]
  obtain ⟨shape, stage⟩ := call
  cases stage with
  | head =>
    have hnone : Call.nextItem? stream.cancelled ⟨shape, .head⟩ = none := by rcases hfed' with ⟨summary, rfl⟩ | rfl <;> rfl
    rw [hnone]
    change IsWithin settings inbound (runs ++ []) _ _ _
    rw [List.append_nil]
    exact h.step_head shared hfed
  | running request => exact (h.step_running shared hfed).fewer heffort
  | sending response =>
    change IsWithin settings inbound (runs ++ []) _ _ _
    rw [List.append_nil]
    exact (h.step_sending shared).fewer heffort
  | ended outcome => cases hopen

/-- A call that has an outcome has come to the end of its segment. -/
theorem Within.comes_to_end (h : Within settings inbound runs steps conn later call stream unread left sent) {outcome : Except Status Reply}
    (houtcome : call.outcome? = some outcome) :
    outcome = inbound.outcome runs ∧ runs.map Prod.fst = inbound.requests ∧ textLines unread = inbound.rest ∧
      sent = inbound.call.call.shape.answers runs := by
  have hrequests := h.requests_eq
  have hsent := h.sent_eq
  have hshape := h.shape_eq
  cases h.ahead with
  | head => cases houtcome
  | running => cases houtcome
  | sending => cases houtcome
  | ended shape hlines =>
    obtain rfl : shape = inbound.call.call.shape.afterRuns runs := hshape
    exact ⟨(Option.some.inj houtcome).symm, (List.append_nil _).symm.trans hrequests, hlines, (List.append_nil _).symm.trans hsent⟩

theorem Within.closes (h : Within settings inbound runs steps conn later call stream unread left sent) {outcome : Except Status Reply}
    (houtcome : call.outcome? = some outcome) : inbound.Ends runs later shared (conn.apply settings shared .step) := by
  have hresponse : OpenCall.response { inbound.call with call, stream } outcome = inbound.call.response outcome :=
    OpenCall.response_of_id call h.id_eq outcome
  have hstep : conn.apply settings shared .step = conn.closeCall shared { inbound.call with call, stream } outcome := by
    rw [Connection.apply, step_of_serving settings shared h.phase, stepCall]
    simp only [houtcome]
  rw [hstep, closeCall, hresponse, writeLine_of_room h.room]
  obtain ⟨rfl, hrequests, hlines, hsent⟩ := h.comes_to_end houtcome
  have hwritten : inbound.written runs =
      sent.flatMap (itemLine inbound.call.stream.id) ++ (inbound.call.response (inbound.outcome runs)).line := by
    rw [hsent]
    rfl
  have hbytesIn : stream.bytesIn = inbound.call.stream.bytesIn + (Utf8.size inbound.text - Utf8.size inbound.rest.flatten) := by
    have hin := h.bytesIn_eq
    have hle := h.steps_le
    rw [← hlines, flatten_textLines]
    omega
  have hbytesOut : stream.bytesOut + Utf8.size (inbound.call.response (inbound.outcome runs)).line =
      inbound.call.stream.bytesOut + Utf8.size (inbound.written runs) := by
    rw [hwritten, h.bytesOut_eq, Utf8.size_append, Nat.add_assoc]
  have hevent : OpenCall.event { inbound.call with
      call
      stream := { stream with bytesOut := stream.bytesOut + Utf8.size (inbound.call.response (inbound.outcome runs)).line } }
      (inbound.outcome runs) = inbound.event runs := by
    simp only [OpenCall.event, Inbound.event, hbytesIn, hbytesOut]
  refine ⟨hrequests, rfl, ⟨unread, ⟨h.expects.bytes, h.expects.complete⟩, hlines⟩, ?_, ?_⟩
  · dsimp only
    rw [h.outbox_eq, hwritten, List.append_assoc, Utf8.encode_append]
  · dsimp only
    rw [hevent]

theorem IsWithin.isSome (h : IsWithin settings inbound runs steps conn later) : conn.openLabels?.isSome = true := by
  obtain ⟨call, stream, unread, left, sent, h⟩ := h
  rw [openLabels?_of_serving h.phase]
  rfl

/-- An event leaves the call within its segment, or is the step that ends it. -/
theorem IsWithin.apply (hfed : inbound.call.call.shape.IsFed) (hwatching : inbound.call.watching = false)
    (h : IsWithin settings inbound runs steps conn later) {event : ConnectionEvent} {last : List UInt8} (hevent : Brings later event last)
    (hquiet : event ≠ .shutdown) :
    IsWithin settings inbound (runs ++ (conn.happens settings shared event).toList.filterMap Happening.run?) (steps + conn.effort event)
        (conn.apply settings shared event).1 last ∨
      inbound.Ends runs last shared (conn.apply settings shared event) := by
  obtain ⟨call, stream, unread, left, sent, h⟩ := h
  have hnothing : runs ++ (none : Option Happening).toList.filterMap Happening.run? = runs := List.append_nil runs
  cases hevent with
  | step =>
    cases houtcome : call.outcome? with
    | none => exact .inl (h.step shared hfed houtcome)
    | some outcome => exact .inr (h.closes shared houtcome)
  | shutdown => exact absurd rfl hquiet
  | deliver bytes =>
    left
    rw [show conn.happens settings shared (.deliver bytes) = none from rfl, hnothing]
    refine ⟨call, stream, unread, left, sent, { h with expects := ⟨?_, fun hended => ?_⟩ }⟩
    · exact (List.append_assoc _ _ _).trans h.expects.bytes
    · exact (List.append_eq_nil_iff.mp (h.expects.complete hended)).2
  | hangUp =>
    left
    rw [show conn.happens settings shared .hangUp = none from rfl, hnothing]
    exact ⟨call, stream, unread, left, sent, { h with expects := ⟨h.expects.bytes, fun _ => rfl⟩ }⟩
  | watch =>
    left
    rw [show conn.happens settings shared .watch = none from rfl, hnothing]
    have hwatch : conn.watch = conn := by
      simp only [Connection.watch, h.phase, hwatching, Bool.not_false, if_true]
    rw [show (conn.apply settings shared .watch).1 = conn from hwatch]
    exact ⟨call, stream, unread, left, sent, h⟩

theorem IsWithin.follows (hfed : inbound.call.call.shape.IsFed) (hwatching : inbound.call.watching = false) {missing : List UInt8}
    (h : IsWithin settings inbound [] 0 conn missing) {next : Connection} (hfollows : Follows settings conn missing runs steps next later) :
    IsWithin settings inbound runs steps next later := by
  induction hfollows with
  | refl => exact h
  | after _ shared hevent hquiet hopen ih =>
    rcases ih.apply shared hfed hwatching hevent hquiet with hwithin | hends
    · exact hwithin
    · rw [openLabels?_of_idle hends.idle] at hopen
      cases hopen

/-! ## Calls that read no stream -/

/-- The call is open and has taken nothing but the line of its request, which had this size. -/
def Abstains (method : String) (size : Nat) (conn : Connection) : Prop :=
  ∃ call, conn.phase = .serving call ∧ call.call.Suits method ∧ call.stream.bytesIn = size

variable {method : String} {size : Nat}

theorem writeLine_frame (line : List Char) (s : Wire × CallStream) :
    (writeLine line s).2.1.inbox = s.1.inbox ∧ (writeLine line s).2.2.bytesIn = s.2.bytesIn := by
  unfold writeLine Wire.write
  cases s.1.room with
  | none => exact ⟨rfl, rfl⟩
  | some room =>
    dsimp only
    cases decide ((Utf8.encode line).length ≤ room) <;> exact ⟨rfl, rfl⟩

theorem send_frame (s : Wire × CallStream) (response : WorkResponse) :
    (send s response).2.1.inbox = s.1.inbox ∧ (send s response).2.2.bytesIn = s.2.bytesIn := by
  have hwrite := writeLine_frame (Frame.item s.2.id (WorkResponse.codec.toJson response)).line s
  unfold send
  generalize writeLine (Frame.item s.2.id (WorkResponse.codec.toJson response)).line s = result at hwrite ⊢
  obtain ⟨_ | _, s'⟩ := result <;> exact hwrite

/-- A step of a call whose method reads no stream takes nothing off the wire. -/
theorem step_frame (limits : Load.Limits) (hreads : readsStream method = false) {call : Call} (hsuits : call.Suits method) (s : Wire × CallStream) :
    (call.step peer limits shared s).2.1.Suits method ∧ (call.step peer limits shared s).2.2.2.1.inbox = s.1.inbox ∧
      (call.step peer limits shared s).2.2.2.2.bytesIn = s.2.bytesIn := by
  rw [readsStream, Bool.or_eq_false_iff, beq_eq_false_iff_ne, beq_eq_false_iff_ne] at hreads
  obtain ⟨shape, stage⟩ := call
  cases shape with
  | tally summary => exact absurd hsuits.1 hreads.1
  | exchange => exact absurd hsuits hreads.2
  | unary =>
    rcases hsuits with ⟨request, hstage⟩ | ⟨outcome, hstage⟩
    · obtain rfl : stage = .running request := hstage
      exact ⟨Call.suits_finished_unary method _, rfl, rfl⟩
    · obtain rfl : stage = .ended outcome := hstage
      exact ⟨Call.suits_finished_unary method _, rfl, rfl⟩
  | repeated item left =>
    cases stage with
    | ended outcome => exact ⟨hsuits, rfl, rfl⟩
    | running request => exact ⟨hsuits, rfl, rfl⟩
    | sending response =>
      have hsend := send_frame s response
      simp only [Call.step, peer]
      generalize send s response = result at hsend ⊢
      obtain ⟨_ | _, s'⟩ := result <;> exact ⟨hsuits, hsend⟩
    | head =>
      cases left with
      | zero => exact ⟨hsuits, rfl, rfl⟩
      | succ left =>
        simp only [Call.step, peer]
        cases s.2.cancelled <;> exact ⟨hsuits, rfl, rfl⟩

theorem Abstains.apply (hreads : readsStream method = false) (h : conn.Abstains method size) (event : ConnectionEvent)
    (hopen : (conn.apply settings shared event).1.openLabels?.isSome = true) : (conn.apply settings shared event).1.Abstains method size := by
  obtain ⟨call, hphase, hsuits, hsize⟩ := h
  obtain ⟨next, hnext, -, ⟨hcall, hbytes⟩ | ⟨act, after, wire, hstep⟩⟩ := exists_open_apply hphase shared event hopen
  · exact ⟨next, hnext, hcall ▸ hsuits, hbytes.trans hsize⟩
  · obtain ⟨hsuits', -, hbytes⟩ := step_frame shared settings.limits hreads hsuits (conn.wire, call.stream)
    rw [hstep] at hsuits' hbytes
    exact ⟨next, hnext, hsuits', hbytes.trans hsize⟩

theorem Abstains.lasts (hreads : readsStream method = false) (h : conn.Abstains method size) {next : Connection}
    (hlasts : Lasts settings conn next) : next.Abstains method size := by
  induction hlasts with
  | refl => exact h
  | after next shared event _ hopen ih => exact ih.apply shared hreads event hopen

theorem Abstains.inbox_apply (hreads : readsStream method = false) (h : conn.Abstains method size) (event : ConnectionEvent) :
    (conn.apply settings shared event).1.wire.inbox = conn.wire.inbox ++ event.delivered := by
  obtain ⟨call, hphase, hsuits, -⟩ := h
  have hnothing : conn.wire.inbox = conn.wire.inbox ++ [] := (List.append_nil _).symm
  cases event with
  | deliver bytes => rfl
  | hangUp => exact hnothing
  | shutdown => exact (congrArg Wire.inbox (cancelCall_frame { conn with shutdown := true }).1).trans hnothing
  | watch => exact (congrArg Wire.inbox (watch_frame conn).1).trans hnothing
  | abort =>
    simp only [Connection.apply, Connection.abort, hphase]
    exact hnothing
  | step =>
    simp only [Connection.apply, Connection.step, hphase, stepCall]
    cases houtcome : call.call.outcome? with
    | some outcome => exact (writeLine_frame _ _).1.trans hnothing
    | none => exact (step_frame shared settings.limits hreads hsuits (conn.wire, call.stream)).2.1.trans hnothing

theorem Abstains.bytesIn_answered (h : conn.Abstains method size) {event : ConnectionEvent} {entry : CallEvent} {response : Response}
    (hanswered : conn.happens settings shared event = some (.answered entry response)) : entry.bytesIn = size := by
  obtain ⟨call, hphase, -, hsize⟩ := h
  cases event with
  | step =>
    simp only [happens, hphase] at hanswered
    cases houtcome : call.call.outcome? with
    | none =>
      rw [houtcome] at hanswered
      obtain ⟨item, -, heq⟩ := Option.map_eq_some_iff.mp hanswered
      cases heq
    | some outcome =>
      rw [houtcome] at hanswered
      obtain ⟨rfl, -⟩ := Happening.answered.inj (Option.some.inj hanswered)
      exact (writeLine_frame _ _).2.trans hsize
  | abort =>
    simp only [happens, hphase] at hanswered
    cases hanswered
  | _ => cases hanswered

end

/-! ## Where calls divide the input -/

theorem ended_of_receive {s : Wire × CallStream} (h : (receive s).1 = some (.ok none)) : (receive s).2.2.ended = true := by
  unfold receive at h ⊢
  split_ifs at h ⊢ with hended
  · exact hended
  · rcases hread : s.1.nextLine with ⟨read, size, wire⟩
    rw [hread] at h
    cases read with
    | waiting => cases h
    | ended => rfl
    | malformed fault => cases h
    | line text =>
      dsimp only at h ⊢
      generalize requestOf s.2.id text = result at h ⊢
      match result with
      | .ok none => rfl
      | .ok (some request) => cases h
      | .error fault => cases h

theorem receive_receive {s : Wire × CallStream} (h : (receive s).1 = some (.ok none)) : receive (receive s).2 = receive s := by
  have hagain : receive (receive s).2 = (some (.ok none), (receive s).2) := by rw [receive, if_pos (ended_of_receive h)]
  rw [hagain, ← h]

theorem openCall_of_readsStream (settings : Settings) {method : String} (params : Json) (hreads : readsStream method = true) :
    ∃ shape, Service.openCall settings method params = ⟨shape, .head⟩ ∧ (shape = .tally {} ∨ shape = .exchange) := by
  rw [readsStream, Bool.or_eq_true, beq_iff_eq, beq_iff_eq] at hreads
  rcases hreads with rfl | rfl
  · exact ⟨.tally {}, rfl, .inl rfl⟩
  · exact ⟨.exchange, rfl, .inr rfl⟩

theorem isWatched_of_readsStream {method : String} (hreads : readsStream method = true) : isWatched method = false := by
  rw [readsStream, Bool.or_eq_true, beq_iff_eq, beq_iff_eq] at hreads
  rcases hreads with rfl | rfl <;> decide

variable {settings : Settings} {conn : Connection}

theorem readLine_of_line {wire : Wire} {missing : List UInt8} {line text : List Char} (h : wire.Expects missing (line ++ text))
    (hread : wire.readLine.1 = .line line) :
    ∃ inbox, wire.readLine.2 = { wire with inbox } ∧ Wire.Expects { wire with inbox } missing text := by
  have hreads := h.readsLine
  generalize wire.readLine = reading at hreads hread
  cases hreads with
  | waiting => cases hread
  | ended => cases hread
  | line front rest inbox htext _ _ _ hexpects =>
    obtain rfl := LineRead.line.inj hread
    obtain rfl := List.append_cancel_left htext
    exact ⟨inbox, rfl, hexpects⟩

/-- A call over a stream begins within its segment. -/
theorem isWithin_start (settings : Settings) {request : Request} (hreads : readsStream request.method = true) {generatedId : String} {order : MapOrder} {size : Nat}
    {missing : List UInt8} {text : List Char} (hphase : conn.phase = .serving (.ofRequest settings request generatedId order size))
    (hlive : conn.shutdown = false) (hroom : conn.wire.room = none) (hexpects : conn.wire.Expects missing text) {outbox : List UInt8}
    (houtbox : conn.wire.outbox = outbox) {requests : List WorkRequest} {ending : Except StreamFault Unit} {rest : List (List Char)}
    (hsegment : Segment request.id (textLines text) requests ending rest) :
    IsWithin settings ⟨.ofRequest settings request generatedId order size, outbox, text, requests, ending, rest⟩ [] 0 conn missing := by
  obtain ⟨shape, hcall, hshape⟩ := openCall_of_readsStream settings request.params hreads
  refine ⟨⟨shape, .head⟩, { id := request.id, bytesIn := size }, text, requests, [], ?_, hlive, hroom, hexpects, rfl, rfl, fun _ => rfl,
    .head shape hsegment, ?_, rfl, ?_, houtbox.trans (List.append_nil _).symm, rfl, rfl, ?_, List.forall_mem_nil _⟩
  · rw [hphase, ← hcall]
    rfl
  · change shape = (Service.openCall settings request.method request.params).shape.afterRuns []
    rw [hcall]
    rcases hshape with rfl | rfl <;> rfl
  · change [] = (Service.openCall settings request.method request.params).shape.answers []
    rw [hcall]
    rcases hshape with rfl | rfl <;> rfl
  · rw [Nat.zero_add]
    rcases hshape with rfl | rfl <;> exact le_rfl

theorem IsWithin.stands {inbound : Inbound} (hfed : inbound.call.call.shape.IsFed) (hwatching : inbound.call.watching = false)
    {runs : List (WorkRequest × WorkResponse)} {steps : Nat} {later : List UInt8} (h : IsWithin settings inbound runs steps conn later) :
    inbound.Stands runs settings steps conn later := by
  obtain ⟨call, stream, unread, left, sent, hwithin⟩ := id h
  have hle := hwithin.steps_le
  refine ⟨⟨left, hwithin.requests_eq⟩, hwithin.ran, by omega, fun shared event last hevent hquiet => ?_⟩
  exact (h.apply shared hfed hwatching hevent hquiet).imp_left IsWithin.isSome

/-- Which part of the input a call takes.

The lines behind the request of a call over a stream begin with one segment for its id. While the call is open it has run the first items of that segment, in order, and a bounded number of steps is all that it takes without waiting for a line. What ends it is a step after all items of the segment have been run: its response follows theirs, it is a failure for what was given where the segment ends in a fault, and the connection goes on with the lines behind the segment. A call of any other method takes nothing but the line of its request, whatever happens, and the log says so. A stream that has ended takes nothing more. -/
theorem streams_are_segments (settings : Settings) (shared : Shared) (hphase : conn.phase = .idle) (hlive : conn.shutdown = false)
    {line : List Char} (hread : conn.wire.readLine.1 = .line line) {request : Request} (hopens : Opens line request) :
    let opened := (conn.apply settings shared .step).1
    (readsStream request.method = true → conn.wire.room = none → ∀ missing text, conn.wire.Expects missing (line ++ text) →
      ∃ requests ending rest, Segment request.id (textLines text) requests ending rest ∧
        (∀ fault, ending = .error fault → fault.toStatus.code = .invalidArgument) ∧
        ∀ runs steps next later, Follows settings opened missing runs steps next later →
          Inbound.Stands ⟨.ofRequest settings request (conn.ids conn.idsUsed) (conn.orders conn.callsOpened) (Utf8.size line), conn.wire.outbox, text, requests, ending, rest⟩
            runs settings steps next later) ∧
    (readsStream request.method = false → opened.wire = conn.wire.readLine.2 ∧ ∀ next, Lasts settings opened next → ∀ shared event,
      (next.apply settings shared event).1.wire.inbox = next.wire.inbox ++ event.delivered ∧
      ∀ entry response, next.happens settings shared event = some (.answered entry response) → entry.bytesIn = Utf8.size line) ∧
    ∀ s, (receive s).1 = some (.ok none) → receive (receive s).2 = receive s := by
  intro opened
  have hopened : opened = (({ conn with wire := conn.wire.readLine.2 } : Connection).openCall settings shared request (Utf8.size line)).1 := by
    rw [← apply_step_of_opens settings shared hphase hlive hread hopens]
  refine ⟨fun hreads hroom missing text hexpects => ?_, fun hreads => ⟨by rw [hopened]; rfl, fun next hlasts shared event => ?_⟩,
    fun s => receive_receive⟩
  · obtain ⟨inbox, hwire, hexpects'⟩ := readLine_of_line hexpects hread
    obtain ⟨requests, ending, rest, hsegment⟩ := exists_segment request.id (textLines text)
    obtain ⟨shape, hcall, hshape⟩ := openCall_of_readsStream settings request.params hreads
    have hfed : (Service.openCall settings request.method request.params).shape.IsFed := by
      rw [hcall]
      exact hshape.imp_left fun htally => ⟨{}, htally⟩
    rw [hwire] at hopened
    have hserving : opened.phase = .serving (.ofRequest settings request (conn.ids conn.idsUsed) (conn.orders conn.callsOpened) (Utf8.size line)) := by
      rw [hopened]
      rfl
    have hwire' : opened.wire = { conn.wire with inbox } := by
      rw [hopened]
      rfl
    have hlive' : opened.shutdown = false := by
      rw [hopened]
      exact hlive
    have hstart := isWithin_start settings hreads hserving hlive' (by rw [hwire']; exact hroom) (by rw [hwire']; exact hexpects') (by rw [hwire'])
      hsegment
    refine ⟨requests, ending, rest, hsegment, fun fault hending => (hending ▸ hsegment).code_of_fault, fun runs steps next later hfollows => ?_⟩
    have hwatching := isWatched_of_readsStream hreads
    exact (hstart.follows hfed hwatching hfollows).stands hfed hwatching
  · have hstart : opened.Abstains request.method (Utf8.size line) := by
      rw [hopened]
      exact ⟨_, rfl, (openCall_suits settings request.method request.params).1, rfl⟩
    have habstains := hstart.lasts hreads hlasts
    exact ⟨habstains.inbox_apply shared hreads event, fun entry response hanswered => habstains.bytesIn_answered shared hanswered⟩

/-- A call that exchanges, with one item and the end frame of another call, and a request of the next call right behind them. -/
def exchangeRequest : Request := Request.new (.number 1) exchangeMethod .null

def exchangeItem : Frame := .item (some (.number 1)) (.object [("request_id", .string "a")])

def otherEnd : Frame := .finish (some (.number 2))

def nextRequest : Request := Request.new (.number 3) pingMethod .null

/-- The call runs its item and fails at the end frame of the other call; the request behind that is still in the inbox. -/
theorem streams_are_segments_other_end :
    let settings : Settings := { limits := .unbounded }
    let shared : Shared := { draws := .cycle [] }
    let text := exchangeItem.line ++ (otherEnd.line ++ nextRequest.line)
    let conn : Connection := { ids := toString, wire := { inbox := Utf8.encode (exchangeRequest.line ++ text) } }
    let steps : List ConnectionEvent := List.replicate 6 .step
    conn.wire.readLine.1 = .line exchangeRequest.line ∧ Opens exchangeRequest.line exchangeRequest.received ∧
      (∃ requests ending rest, Segment exchangeRequest.id (textLines text) requests ending rest ∧
        (∀ fault, ending = .error fault → fault.toStatus.code = .invalidArgument) ∧ requests = [{ requestId := "a" }] ∧ rest = [nextRequest.line]) ∧
      (conn.applyAll settings shared steps).1.wire.inbox = Utf8.encode nextRequest.line ∧
      (conn.applyAll settings shared steps).2.log.map CallEvent.code = [.invalidArgument] := by
  intro settings shared text conn steps
  have hread : conn.wire.readLine.1 = .line exchangeRequest.line := by decide +kernel
  have hopens : Opens exchangeRequest.line exchangeRequest.received := ⟨by decide +kernel, Request.parse_line trivial (by decide), rfl⟩
  have hlines : textLines text = [exchangeItem.line, otherEnd.line, nextRequest.line] := by decide +kernel
  have hitem : IsTo (some (.number 1)) exchangeItem.line (.ok (some { requestId := "a" })) :=
    .item _ _ (Frame.parse_line ⟨trivial, trivial⟩ (by decide)) rfl rfl (by decide +kernel)
  have hother : IsTo (some (.number 1)) otherEnd.line (.error (.unexpected _)) := .stranger _ (Frame.parse_line trivial (by decide)) (by decide)
  have hsegment := Segment.item exchangeItem.line _ (by decide +kernel) hitem
    (.fault otherEnd.line _ [nextRequest.line] (by decide +kernel) hother)
  obtain ⟨hstream, -, -⟩ := streams_are_segments settings shared (show conn.phase = .idle from rfl) rfl hread hopens
  obtain ⟨requests, ending, rest, h, hfault, -⟩ := hstream (by decide) rfl [] text ⟨List.append_nil _, fun _ => rfl⟩
  rw [hlines] at h
  obtain ⟨rfl, -, rfl⟩ := h.unique hsegment
  exact ⟨hread, hopens, ⟨_, ending, _, hlines ▸ h, hfault, rfl, rfl⟩, by decide +kernel, by decide +kernel⟩

end Connection

end LoadGenerator
