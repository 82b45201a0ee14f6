import LoadGenerator.Connection.Stream
import LoadGenerator.Proofs.Connection.Lines

/-!
# Steps of an open call

What a call does to the wire and the stream of its connection in one step. It takes text only where its method reads a stream, writes only item frames that carry its id, and each step that does not wait for the peer brings it nearer to its end.
-/

namespace LoadGenerator.Service

open Message

/-! ## The shape that a method gives its call -/

/-- How many times are left to a call that repeats. -/
def Shape.left : Shape → Nat
  | .repeated _ left => left
  | _ => 0

/-- A call that the method can have brought to its stage. -/
def Call.Suits (method : String) (call : Call) : Prop :=
  match call.shape with
  | .unary => (∃ request, call.stage = .running request) ∨ ∃ outcome, call.stage = .ended outcome
  | .repeated _ _ => method = repeatMethod
  | .tally _ => method = tallyMethod ∧ ∀ response, call.stage ≠ .sending response
  | .exchange => method = exchangeMethod

/-- A bound on the steps that a call takes before it ends or reads another line. -/
def Call.weight (call : Call) : Nat :=
  match call.stage with
  | .ended _ => 0
  | .head => 2 * call.shape.left + 1
  | .sending _ => 2 * call.shape.left + 2
  | .running _ => 2 * call.shape.left + 3

theorem Call.suits_finished_unary (method : String) (outcome : Except Status Reply) :
    (Call.finished .unary outcome).Suits method := .inr ⟨outcome, rfl⟩

theorem Call.Suits.finished {method : String} {call : Call} (h : call.Suits method) {shape : Shape}
    (hshape : shape = call.shape) (outcome : Except Status Reply) : (Call.finished shape outcome).Suits method := by
  subst hshape
  unfold Call.Suits at h ⊢
  cases hs : call.shape with
  | unary => exact .inr ⟨outcome, rfl⟩
  | repeated request left =>
    rw [hs] at h
    exact h
  | tally summary =>
    rw [hs] at h
    exact ⟨h.1, nofun⟩
  | exchange =>
    rw [hs] at h
    exact h

theorem openWith_suits {α : Type} {codec : JsonCodec α} {params : Json} {start : α → Call} {method : String}
    (hstart : ∀ a, (start a).Suits method ∧ (start a).weight < 4294967300) :
    (openWith codec params start).Suits method ∧ (openWith codec params start).weight < 4294967300 := by
  unfold openWith
  cases decodeParams codec params with
  | ok a => exact hstart a
  | error status => exact ⟨Call.suits_finished_unary method _, by simp [Call.weight, Call.finished]⟩

theorem toNatClampNeg_lt (n : Int32) : n.toNatClampNeg < 2147483648 := by
  have h := n.toInt_lt
  rw [← Int32.toNat_toInt]
  omega

theorem Call.repeated_suits (request : RepeatRequest) :
    (Call.repeated request).Suits repeatMethod ∧ (Call.repeated request).weight < 4294967300 := by
  have hleft := toNatClampNeg_lt request.times
  unfold Call.repeated
  dsimp only
  split_ifs
  · exact ⟨rfl, by simp [Call.weight, Call.finished]⟩
  · refine ⟨rfl, ?_⟩
    simp only [Call.weight, Shape.left]
    omega

theorem openCall_suits (settings : Settings) (method : String) (params : Json) :
    (openCall settings method params).Suits method ∧ (openCall settings method params).weight < 4294967300 := by
  have hended : ∀ outcome, (Call.finished .unary outcome).Suits method ∧
      (Call.finished .unary outcome).weight < 4294967300 :=
    fun outcome => ⟨Call.suits_finished_unary method outcome, by simp [Call.weight, Call.finished]⟩
  unfold openCall
  split_ifs with hhealth hping hwork hrepeat htally hexchange
  · exact hended _
  · exact openWith_suits fun _ => hended _
  · exact openWith_suits fun request => ⟨.inl ⟨request, rfl⟩, by simp [Call.weight, Call.unary, Shape.left]⟩
  · subst hrepeat
    exact openWith_suits Call.repeated_suits
  · exact ⟨⟨htally, nofun⟩, by simp [Call.weight, Call.tally, Shape.left]⟩
  · exact ⟨hexchange, by simp [Call.weight, Call.exchange, Shape.left]⟩
  · exact hended _

end LoadGenerator.Service

namespace LoadGenerator.Connection

open Message Service

/-! ## One step over the wire -/

theorem write_of_room {wire : Wire} (hroom : wire.room = none) (bytes : List UInt8) :
    wire.write bytes = (true, { wire with outbox := wire.outbox ++ bytes }) := by
  simp only [Wire.write, hroom]

theorem writeLine_of_room {wire : Wire} (hroom : wire.room = none) (line : List Char) (stream : CallStream) :
    writeLine line (wire, stream) =
      (true, { wire with outbox := wire.outbox ++ Utf8.encode line },
        { stream with bytesOut := stream.bytesOut + Utf8.size line }) := by
  simp only [writeLine, write_of_room hroom]

theorem send_of_room {wire : Wire} (hroom : wire.room = none) (stream : CallStream) (response : WorkResponse) :
    send (wire, stream) response =
      (.ok (), { wire with outbox := wire.outbox ++ Utf8.encode (Frame.item stream.id (WorkResponse.codec.toJson response)).line },
        { stream with
          bytesOut := stream.bytesOut + Utf8.size (Frame.item stream.id (WorkResponse.codec.toJson response)).line }) := by
  simp only [send, writeLine_of_room hroom]

/-- What a step of an open call leaves, given the text that is still to be read. -/
structure CallEffect (method : String) (call : Call) (wire : Wire) (stream : CallStream) (missing : List UInt8)
    (text : List Char) (next : Call) (wire' : Wire) (stream' : CallStream) (taken : List (List Char)) (rest : List Char)
    (frames : List Frame) (inbox : List UInt8) : Prop where
  lines_eq : textLines text = taken ++ textLines rest
  wire_eq : wire' = { wire with inbox, outbox := wire.outbox ++ Utf8.encode (frames.flatMap Frame.line) }
  expects : Wire.Expects { wire with inbox } missing rest
  suits : next.Suits method
  id_eq : stream'.id = stream.id
  cancelled_eq : stream'.cancelled = stream.cancelled
  bytesIn_eq : stream'.bytesIn = stream.bytesIn + Utf8.size taken.flatten
  bytesOut_eq : stream'.bytesOut = stream.bytesOut + Utf8.size (frames.flatMap Frame.line)
  frames_item : ∀ frame ∈ frames, ∃ response, frame = .item stream.id (WorkResponse.codec.toJson response)
  frames_method : frames ≠ [] → method = repeatMethod ∨ method = exchangeMethod
  taken_method : taken ≠ [] → method = tallyMethod ∨ method = exchangeMethod
  /-- Once the peer has ended or the token is cancelled, the call gets nearer to its end or takes a line. -/
  progress : wire.inputEnded = true ∨ stream.cancelled = true →
    inbox.length ≤ wire.inbox.length ∧ next.weight < call.weight ∨
      inbox.length < wire.inbox.length ∧ stream.cancelled = false ∧ next.weight < 4294967300

theorem CallEffect.still {method : String} {call next : Call} {wire : Wire} {stream : CallStream} {missing : List UInt8}
    {text : List Char} (hexpects : wire.Expects missing text) (hsuits : next.Suits method)
    (hweight : next.weight < call.weight) :
    CallEffect method call wire stream missing text next wire stream [] text [] wire.inbox where
  lines_eq := rfl
  wire_eq := by simp
  expects := hexpects
  suits := hsuits
  id_eq := rfl
  cancelled_eq := rfl
  bytesIn_eq := rfl
  bytesOut_eq := rfl
  frames_item := by simp
  frames_method := by simp
  taken_method := by simp
  progress _ := .inl ⟨le_rfl, hweight⟩

section

variable {method : String} {wire : Wire} {stream : CallStream} {missing : List UInt8} {text : List Char}

theorem CallEffect.send (stream : CallStream) (hexpects : wire.Expects missing text) (hroom : wire.room = none) {shape : Shape}
    {response : WorkResponse} (hsuits : (Call.mk shape (.sending response)).Suits method) :
    CallEffect method ⟨shape, .sending response⟩ wire stream missing text ⟨shape, .head⟩
      (send (wire, stream) response).2.1 (send (wire, stream) response).2.2 [] text
      [.item stream.id (WorkResponse.codec.toJson response)] wire.inbox := by
  rw [send_of_room hroom]
  refine ⟨rfl, by simp, hexpects, ?_, rfl, rfl, rfl, by simp, ?_, ?_, by simp, fun _ => .inl ⟨le_rfl, by simp [Call.weight]⟩⟩
  · unfold Call.Suits at hsuits ⊢
    cases shape with
    | unary => simp at hsuits
    | repeated request left => exact hsuits
    | tally summary => exact ⟨hsuits.1, nofun⟩
    | exchange => exact hsuits
  · intro frame hframe
    exact ⟨response, List.mem_singleton.mp hframe⟩
  · intro _
    unfold Call.Suits at hsuits
    cases shape with
    | unary => simp at hsuits
    | repeated request left => exact .inl hsuits
    | tally summary => exact absurd rfl (hsuits.2 response)
    | exchange => exact .inr hsuits

/-- The call after what it received, or did not. -/
def afterReceive (shape : Shape) : Option (Except Status (Option WorkRequest)) → Call
  | none => ⟨shape, .head⟩
  | some (.ok (some request)) => ⟨shape, .running request⟩
  | some (.ok none) => .finished shape (.ok (Call.streamReply shape))
  | some (.error status) => .finished shape (.error status)

theorem afterReceive_suits {shape : Shape} (hsuits : (Call.mk shape .head).Suits method)
    (received : Option (Except Status (Option WorkRequest))) : (afterReceive shape received).Suits method := by
  match received with
  | none => exact hsuits
  | some (.ok none) => exact hsuits.finished rfl _
  | some (.error status) => exact hsuits.finished rfl _
  | some (.ok (some request)) =>
    unfold Call.Suits at hsuits ⊢
    cases shape with
    | unary => exact .inl ⟨request, rfl⟩
    | repeated item left => exact hsuits
    | tally summary => exact ⟨hsuits.1, nofun⟩
    | exchange => exact hsuits

theorem afterReceive_weight_lt {shape : Shape} (hshape : shape.left = 0)
    (received : Option (Except Status (Option WorkRequest))) : (afterReceive shape received).weight < 4294967300 := by
  match received with
  | none => simp [afterReceive, Call.weight, hshape]
  | some (.ok none) => simp [afterReceive, Call.weight, Call.finished]
  | some (.error status) => simp [afterReceive, Call.weight, Call.finished]
  | some (.ok (some request)) => simp [afterReceive, Call.weight, hshape]

/-- What a line brings is a request, the end of the stream or a failure. -/
theorem receive_line {front : List Char} {size : Nat} {wire' : Wire} (hopen : stream.ended = false)
    (hnext : wire.nextLine = (.line front, size, wire')) :
    ∃ received stream', receive (wire, stream) = (received, wire', stream') ∧ stream'.id = stream.id ∧
      stream'.cancelled = stream.cancelled ∧ stream'.bytesIn = stream.bytesIn + size ∧ stream'.bytesOut = stream.bytesOut := by
  simp only [receive, hopen, hnext, Bool.false_eq_true, if_false]
  match requestOf stream.id front with
  | .ok none => exact ⟨_, _, rfl, rfl, rfl, rfl, rfl⟩
  | .ok (some request) => exact ⟨_, _, rfl, rfl, rfl, rfl, rfl⟩
  | .error fault => exact ⟨_, _, rfl, rfl, rfl, rfl, rfl⟩

/-- Receiving takes lines of the stream, and ends the call or gives it a request unless the line is not there yet. -/
theorem CallEffect.receive (hexpects : wire.Expects missing text) {shape : Shape}
    (hsuits : (Call.mk shape .head).Suits method) (hmethod : method = tallyMethod ∨ method = exchangeMethod)
    (hshape : shape.left = 0) (hlive : stream.cancelled = false) :
    ∃ taken rest inbox,
      CallEffect method ⟨shape, .head⟩ wire stream missing text (afterReceive shape (receive (wire, stream)).1)
        (receive (wire, stream)).2.1 (receive (wire, stream)).2.2 taken rest [] inbox := by
  have hnothing : wire.outbox ++ Utf8.encode ([].flatMap Frame.line) = wire.outbox := List.append_nil _
  by_cases hended : stream.ended = true
  · have hreceive : Connection.receive (wire, stream) = (some (.ok none), wire, stream) := by
      simp only [Connection.receive, hended, if_true]
    rw [hreceive]
    exact ⟨[], text, wire.inbox, .still hexpects (hsuits.finished rfl _) (by simp [afterReceive, Call.weight, Call.finished])⟩
  · rw [Bool.not_eq_true] at hended
    have hread := hexpects.readsNext
    generalize hnext : wire.nextLine = reading at hread
    cases hread with
    | waiting blanks rest inbox hlines hopen hpart hexpects' =>
      have hreceive : Connection.receive (wire, stream) =
          (none, { wire with inbox }, { stream with bytesIn := stream.bytesIn + Utf8.size blanks.flatten }) := by
        simp only [Connection.receive, hended, hnext, Bool.false_eq_true, if_false]
      rw [hreceive]
      refine ⟨blanks, rest, inbox, hlines, by rw [hnothing], hexpects', hsuits, rfl, rfl, rfl, rfl, by simp, by simp,
        fun _ => hmethod, ?_⟩
      rw [hopen, hlive]
      rintro (h | h) <;> cases h
    | ended blanks hlines hend =>
      have hreceive : Connection.receive (wire, stream) =
          (some (.ok none), { wire with inbox := [] },
            { stream with bytesIn := stream.bytesIn + Utf8.size blanks.flatten, ended := true }) := by
        simp only [Connection.receive, hended, hnext, Bool.false_eq_true, if_false]
      rw [hreceive]
      refine ⟨blanks, [], [], by rw [hlines, textLines, List.append_nil], by rw [hnothing], ⟨?_, hexpects.complete⟩,
        afterReceive_suits hsuits _, rfl, rfl, rfl, rfl, by simp, by simp, fun _ => hmethod, fun _ => .inl ⟨Nat.zero_le _, ?_⟩⟩
      · rw [hexpects.complete hend]
        rfl
      · simp [afterReceive, Call.weight, Call.finished]
    | line blanks front rest inbox hlines hfront hshorter hexpects' =>
      obtain ⟨received, stream', hreceive, hid, hcancelled, hbytesIn, hbytesOut⟩ := receive_line hended hnext
      rw [hreceive]
      refine ⟨blanks ++ [front], rest, inbox, by rw [hlines, List.append_assoc, List.singleton_append], by rw [hnothing],
        hexpects', afterReceive_suits hsuits _, hid, hcancelled, by simpa using hbytesIn, hbytesOut, by simp, by simp, fun _ => hmethod,
        fun _ => .inr ?_⟩
      exact ⟨hshorter, hlive, afterReceive_weight_lt hshape _⟩

/-- At the head of a loop over the stream, a call whose token is not cancelled receives. -/
theorem step_receiving (limits : Load.Limits) (shared : Shared) {shape : Shape}
    (hshape : (∃ summary, shape = .tally summary) ∨ shape = .exchange) (hlive : stream.cancelled = false) :
    (Call.step peer limits ⟨shape, .head⟩ shared (wire, stream)).2 =
      (afterReceive shape (receive (wire, stream)).1, shared, (receive (wire, stream)).2) := by
  rcases hshape with ⟨summary, rfl⟩ | rfl
  all_goals
    simp only [Call.step, peer, hlive]
    generalize receive (wire, stream) = result
    obtain ⟨received, s'⟩ := result
    match received with
    | none => rfl
    | some (.ok none) => rfl
    | some (.ok (some request)) => rfl
    | some (.error status) => rfl

/-- A call whose token is cancelled ends at the head of its loop, unless it has nothing left to do. -/
theorem step_cancelled (limits : Load.Limits) (shared : Shared) {shape : Shape}
    (hshape : ∀ item, shape ≠ .repeated item 0) (hcancelled : stream.cancelled = true) :
    Call.step peer limits ⟨shape, .head⟩ shared (wire, stream) =
      (some .sawCancelled, .finished shape (.error .callCancelled), shared, wire, stream) := by
  cases shape with
  | repeated item left =>
    cases left with
    | zero => exact absurd rfl (hshape item)
    | succ left => simp only [Call.step, peer, hcancelled]
  | unary => simp only [Call.step, peer, hcancelled]
  | tally summary => simp only [Call.step, peer, hcancelled]
  | exchange => simp only [Call.step, peer, hcancelled]

/-- A call whose method reads no stream goes on without the peer. -/
theorem step_alone (limits : Load.Limits) (shared : Shared) {call : Call} (hsuits : call.Suits method) (htally : method ≠ tallyMethod)
    (hexchange : method ≠ exchangeMethod) (hopen : call.outcome? = none) (hroom : wire.room = none) :
    ∃ act next shared' stream', ∃ frames : List Frame,
      call.step peer limits shared (wire, stream) =
        (act, next, shared', { wire with outbox := wire.outbox ++ Utf8.encode (frames.flatMap Frame.line) }, stream') ∧
      next.Suits method ∧ stream'.id = stream.id ∧ next.weight < call.weight := by
  have hsame : { wire with outbox := wire.outbox ++ Utf8.encode ([].flatMap Frame.line) } = wire := by simp
  obtain ⟨shape, stage⟩ := call
  have hfinished (outcome : Except Status Reply) (hstage : stage = .head) :
      (Call.finished shape outcome).weight < (Call.mk shape stage).weight := by
    rw [hstage]
    simp [Call.weight, Call.finished]
  cases shape with
  | tally summary => exact absurd hsuits.1 htally
  | exchange => exact absurd hsuits hexchange
  | unary =>
    rcases hsuits with ⟨request, hstage⟩ | ⟨outcome, hstage⟩
    · obtain rfl : stage = .running request := hstage
      refine ⟨_, _, _, stream, [], by rw [hsame]; rfl, Call.suits_finished_unary method _, rfl, ?_⟩
      simp [Call.weight, Call.finished]
    · rw [show stage = .ended outcome from hstage] at hopen
      cases hopen
  | repeated item left =>
    cases stage with
    | ended outcome => cases hopen
    | running request =>
      refine ⟨_, ⟨.repeated item left, .sending (runItem limits shared request).1⟩, _, stream, [], by rw [hsame]; rfl, hsuits, rfl, ?_⟩
      simp [Call.weight, Shape.left]
    | sending response =>
      refine ⟨some (.sent response), ⟨.repeated item left, .head⟩, shared,
        { stream with
          bytesOut := stream.bytesOut + Utf8.size (Frame.item stream.id (WorkResponse.codec.toJson response)).line },
        [.item stream.id (WorkResponse.codec.toJson response)], ?_, hsuits, rfl, ?_⟩
      · simp only [Call.step, peer, send_of_room hroom, List.flatMap_singleton]
      · simp [Call.weight, Shape.left]
    | head =>
      cases left with
      | zero => exact ⟨_, .finished (.repeated item 0) (.ok .nothing), _, stream, [], by rw [hsame]; rfl, hsuits, rfl, hfinished _ rfl⟩
      | succ left =>
        cases hcancelled : stream.cancelled with
        | true =>
          refine ⟨some .sawCancelled, .finished (.repeated item (left + 1)) (.error .callCancelled), shared, stream, [], ?_, hsuits, rfl, hfinished _ rfl⟩
          rw [hsame]
          exact step_cancelled limits shared (fun _ => nofun) hcancelled
        | false =>
          refine ⟨some (.ran (runItem limits shared item).1), ⟨.repeated item left, .sending (runItem limits shared item).1⟩, (runItem limits shared item).2, stream, [], ?_, hsuits, rfl, ?_⟩
          · rw [hsame]
            simp only [Call.step, peer, hcancelled]
          · simp only [Call.weight, Shape.left]
            omega

theorem CallEffect.step (limits : Load.Limits) (shared : Shared) {call : Call} (hsuits : call.Suits method)
    (hopen : call.outcome? = none) (hexpects : wire.Expects missing text) (hroom : wire.room = none) :
    ∃ taken rest frames inbox,
      CallEffect method call wire stream missing text (call.step peer limits shared (wire, stream)).2.1
        (call.step peer limits shared (wire, stream)).2.2.2.1 (call.step peer limits shared (wire, stream)).2.2.2.2
        taken rest frames inbox := by
  obtain ⟨shape, stage⟩ := call
  cases stage with
  | ended outcome => cases hopen
  | running request =>
    refine ⟨[], text, [], wire.inbox, .still hexpects ?_ ?_⟩
    · unfold Call.Suits at hsuits
      cases shape with
      | unary => exact .inr ⟨_, rfl⟩
      | repeated item left => exact hsuits
      | tally summary => exact ⟨hsuits.1, nofun⟩
      | exchange => exact hsuits
    · cases shape <;> simp [Call.step, Call.afterRun, Call.weight, Call.finished, Shape.left]
  | sending response =>
    have heffect := CallEffect.send stream hexpects hroom hsuits
    rw [send_of_room hroom] at heffect
    refine ⟨[], text, [.item stream.id (WorkResponse.codec.toJson response)], wire.inbox, ?_⟩
    simp only [Call.step, peer, send_of_room hroom]
    exact heffect
  | head =>
    have hweight : ∀ outcome, (Call.finished shape outcome).weight < (Call.mk shape .head).weight :=
      fun outcome => by simp [Call.weight, Call.finished]
    cases hcancelled : stream.cancelled with
    | true =>
      by_cases hdone : ∃ item, shape = .repeated item 0
      · obtain ⟨item, rfl⟩ := hdone
        exact ⟨[], text, [], wire.inbox, .still hexpects (hsuits.finished rfl _) (hweight _)⟩
      · rw [step_cancelled limits shared (fun item h => hdone ⟨item, h⟩) hcancelled]
        exact ⟨[], text, [], wire.inbox, .still hexpects (hsuits.finished rfl _) (hweight _)⟩
    | false =>
      cases shape with
      | unary => simp [Call.Suits] at hsuits
      | repeated item left =>
        cases left with
        | zero => exact ⟨[], text, [], wire.inbox, .still hexpects (hsuits.finished rfl _) (hweight _)⟩
        | succ left =>
          refine ⟨[], text, [], wire.inbox, ?_⟩
          simp only [Call.step, peer, hcancelled]
          exact .still hexpects hsuits (by simp only [Call.weight, Shape.left]; omega)
      | tally summary =>
        obtain ⟨taken, rest, inbox, heffect⟩ := CallEffect.receive hexpects hsuits (.inl hsuits.1) rfl hcancelled
        refine ⟨taken, rest, [], inbox, ?_⟩
        rw [step_receiving limits shared (.inl ⟨summary, rfl⟩) hcancelled]
        exact heffect
      | exchange =>
        obtain ⟨taken, rest, inbox, heffect⟩ := CallEffect.receive hexpects hsuits (.inr hsuits) rfl hcancelled
        refine ⟨taken, rest, [], inbox, ?_⟩
        rw [step_receiving limits shared (.inr rfl) hcancelled]
        exact heffect

end

end LoadGenerator.Connection
