import LoadGenerator.Proofs.Connection.Padding

/-!
# How a stream is closed

The peer ends the stream of its last call with an end frame or by hanging up. Up to there the connection does the same in both cases, whatever the peer will do, and it is enough to see what the end frame does to a connection that has read everything else. A call that is still in its stream takes the end frame for what the hang-up is as well, and ends the same way but for the bytes of the frame. A call that has failed at one of its items is over by then, and the connection answers the end frame as a line that is no request.
-/

namespace LoadGenerator.Connection

open Message Service

/-! ## States that come to the same end -/

/-- Whatever the peer sends, the second state comes to the end that the first one comes to. -/
def SameEnd (settings : Settings) (state next : Connection × Shared) : Prop :=
  ∀ missing last, EndsAt settings (next.1.toEnd missing, next.2) last ↔ EndsAt settings (state.1.toEnd missing, state.2) last

section

variable {settings : Settings} {state next last : Connection × Shared} {conn : Connection} {shared : Shared}

theorem SameEnd.refl (state : Connection × Shared) : SameEnd settings state state := fun _ _ => Iff.rfl

theorem SameEnd.trans (h : SameEnd settings state next) (hmore : SameEnd settings next last) : SameEnd settings state last :=
  fun missing other => (hmore missing other).trans (h missing other)

theorem sameEnd_step (hopen : conn.wire.inputEnded = false) (hstep : conn.step settings shared = next) : SameEnd settings (conn, shared) next := by
  intro missing last
  have hcomplete : conn.wire.inputEnded = true → missing = [] := fun hended => by simp [hopen] at hended
  rw [← hstep]
  exact endsAt_step hcomplete shared

end

/-! ## Up to the end of what the peer sends -/

/-- The connection is between calls, and this text has arrived for it. -/
structure Between (conn : Connection) (text : List Char) : Prop where
  opened : conn.IsOpen [] text
  idle : conn.phase = .idle

/-- The open call is to read its next frame, and this text has arrived for it. -/
structure AtHead (conn : Connection) (call : OpenCall) (shape : Shape) (text : List Char) : Prop where
  opened : conn.IsOpen [] text
  serving : conn.phase = .serving call
  head : call.call = ⟨shape, .head⟩
  fed : shape.IsFed
  uncancelled : call.stream.cancelled = false
  reading : call.stream.ended = false

/-- A line that may stand for an item of the call: it does not end the stream, and would open no call. -/
structure IsItemLine (id : Option RequestId) (line : List Char) : Prop where
  leftOver : IsLeftOver line
  goesOn : requestOf id line ≠ .ok none

/-- The call can take the line as a request. -/
def Takes (id : Option RequestId) (line : List Char) : Prop := ∃ request, requestOf id line = .ok (some request)

/-- The frame of any item is such a line. -/
theorem isItemLine_item (id : Option RequestId) {data : Json} (hwritable : data.IsWritable) : IsItemLine id (Frame.item id data).line where
  leftOver := isLeftOver_line (show (Frame.item id data).data.IsWritable from hwritable)
  goesOn := by
    rcases requestOf_item id hwritable with ⟨-, request, hrequest⟩ | ⟨-, fault, hfault⟩
    · simp [hrequest]
    · simp [hfault]

theorem takes_item_iff (id : Option RequestId) (data : Json) : Takes id (Frame.item id data).line ↔ takes id data = true := by
  unfold Takes takes
  rcases requestOf id (Frame.item id data).line with fault | _ | request <;> simp

theorem IsItemLine.cases {id : Option RequestId} {line : List Char} (h : IsItemLine id line) :
    Takes id line ∨ ∃ fault, requestOf id line = .error fault := by
  cases hrequest : requestOf id line with
  | error fault => exact .inr ⟨fault, rfl⟩
  | ok received =>
    cases received with
    | none => exact absurd hrequest h.goesOn
    | some request => exact .inl ⟨request, hrequest⟩

section

variable (settings : Settings) {conn : Connection} {call : OpenCall} {shape : Shape} {line rest : List Char} (shared : Shared)

theorem Between.leftOver (h : conn.Between (line ++ rest)) (hline : IsLeftOver line) :
    ∃ next : Connection, next.Between rest ∧ SameEnd settings (conn, shared) (next, shared) := by
  obtain ⟨hfull, e, hparse⟩ := hline
  rcases h.opened.step_idle settings shared h.idle hfull with ⟨-, hmissing⟩ | ⟨inbox, hstep, hnext, -⟩
  · exact absurd rfl hmissing
  · rw [takeLine_of_unreadable settings shared hfull.visible hparse, reject_of_room hnext.room] at hstep
    refine ⟨_, ?_, sameEnd_step h.opened.inputOpen hstep⟩
    exact ⟨hnext.same rfl rfl rfl rfl, rfl⟩

theorem Between.leftOvers {lines : List (List Char)} (h : conn.Between lines.flatten) (hlines : ∀ line ∈ lines, IsLeftOver line) :
    ∃ next : Connection, next.Between [] ∧ SameEnd settings (conn, shared) (next, shared) := by
  induction lines generalizing conn with
  | nil => exact ⟨conn, h, .refl _⟩
  | cons line lines ih =>
    obtain ⟨hline, hlines⟩ := List.forall_mem_cons.mp hlines
    obtain ⟨next, hnext, hsame⟩ := h.leftOver settings shared hline
    obtain ⟨last, hlast, hmore⟩ := ih hnext hlines
    exact ⟨last, hlast, hsame.trans hmore⟩

/-- A request for a stream brings the connection to its head. -/
theorem Between.begins (h : conn.Between (line ++ rest)) (hline : IsFullLine line) {request : Request} (hopens : Opens line request)
    (hreads : readsStream request.method = true) :
    ∃ next call shape shared', AtHead next call shape rest ∧ call.stream.id = request.id ∧ SameEnd settings (conn, shared) (next, shared') := by
  rcases h.opened.step_idle settings shared h.idle hline with ⟨-, hmissing⟩ | ⟨inbox, hstep, hnext, -⟩
  · exact absurd rfl hmissing
  · rw [takeLine_of_opens settings shared hopens] at hstep
    obtain ⟨shape, hcall, hshape⟩ := openCall_of_readsStream settings request.params hreads
    have hfed : shape.IsFed := hshape.imp_left fun htally => ⟨{}, htally⟩
    refine ⟨_, .ofRequest settings request (conn.ids conn.idsUsed) (conn.orders conn.callsOpened) (Utf8.size line), shape, _, ?_, rfl, sameEnd_step h.opened.inputOpen hstep⟩
    exact ⟨hnext.same rfl rfl rfl rfl, rfl, hcall, hfed, rfl, rfl⟩

theorem AtHead.receives (h : AtHead conn call shape (line ++ rest)) (hline : IsFullLine line) :
    ∃ next : Connection, next.IsOpen [] rest ∧
      next.phase = .serving { call with
        call := afterReceive shape (some (afterLine call.stream line).1), stream := (afterLine call.stream line).2 } ∧
      SameEnd settings (conn, shared) (next, shared) := by
  have houtcome : call.call.outcome? = none := by
    rw [h.head]
    rfl
  rcases h.opened.receive_line settings.limits shared hline h.reading h.uncancelled h.fed with ⟨-, hmissing⟩ | ⟨inbox, hstep, hnext, -⟩
  · exact absurd rfl hmissing
  · rw [← h.head] at hstep
    refine ⟨_, ?_, ?_, sameEnd_step h.opened.inputOpen (step_serving settings shared h.serving houtcome hstep)⟩
    · exact hnext.same rfl rfl rfl rfl
    · rfl

variable (hopen : conn.IsOpen [] rest) (hphase : conn.phase = .serving call) (hfed : shape.IsFed) (huncancelled : call.stream.cancelled = false)
  (hreading : call.stream.ended = false)

include hopen hphase hfed huncancelled hreading

theorem sends_to_head {response : WorkResponse} (hcall : call.call = ⟨shape, .sending response⟩) :
    ∃ next call', AtHead next call' shape rest ∧ call'.stream.id = call.stream.id ∧ SameEnd settings (conn, shared) (next, shared) := by
  have houtcome : call.call.outcome? = none := by
    rw [hcall]
    rfl
  let stream := { call.stream with
    bytesOut := call.stream.bytesOut + Utf8.size (Frame.item call.stream.id (WorkResponse.codec.toJson response)).line }
  have hsend : (call.call.step peer settings.limits shared (conn.wire, call.stream)).2 =
      (⟨shape, .head⟩, shared,
        { conn.wire with
          outbox := conn.wire.outbox ++ Utf8.encode (Frame.item call.stream.id (WorkResponse.codec.toJson response)).line }, stream) := by
    rw [hcall]
    simp only [Call.step, peer, send_of_room hopen.room, stream]
  refine ⟨_, { call with call := ⟨shape, .head⟩, stream }, ?_, rfl, sameEnd_step hopen.inputOpen (step_serving settings shared hphase houtcome hsend)⟩
  exact ⟨hopen.same rfl rfl rfl rfl, rfl, rfl, hfed, huncancelled, hreading⟩

/-- A call runs the request that it has read, and answers it if that is its shape, before it reads on. -/
theorem runs_to_head {request : WorkRequest} (hcall : call.call = ⟨shape, .running request⟩) :
    ∃ next call' shape' shared', AtHead next call' shape' rest ∧ call'.stream.id = call.stream.id ∧
      SameEnd settings (conn, shared) (next, shared') := by
  have houtcome : call.call.outcome? = none := by
    rw [hcall]
    rfl
  have hrun : (call.call.step peer settings.limits shared (conn.wire, call.stream)).2 =
      (Call.afterRun request (runItem settings.limits shared request).1 shape, (runItem settings.limits shared request).2, conn.wire, call.stream) := by
    rw [hcall]
    exact Call.step_running settings.limits peer shared _ shape request
  have hsame := sameEnd_step hopen.inputOpen (step_serving settings shared hphase houtcome hrun)
  rcases hfed with ⟨summary, rfl⟩ | rfl
  · refine ⟨_, { call with call := Call.afterRun request (runItem settings.limits shared request).1 (.tally summary) },
      .tally (tallyItem summary request (runItem settings.limits shared request).1), _, ?_, rfl, hsame⟩
    exact ⟨hopen.same rfl rfl rfl rfl, rfl, rfl, Shape.isFed_tally _, huncancelled, hreading⟩
  · have hopen' : ({ conn with phase := .serving { call with
        call := Call.afterRun request (runItem settings.limits shared request).1 .exchange } } : Connection).IsOpen [] rest :=
      hopen.same rfl rfl rfl rfl
    obtain ⟨next, call', hhead, hid, hmore⟩ :=
      sends_to_head settings (runItem settings.limits shared request).2 hopen' rfl Shape.isFed_exchange huncancelled hreading rfl
    exact ⟨next, call', .exchange, _, hhead, hid, hsame.trans hmore⟩

omit hopen hphase hfed huncancelled hreading

/-- A call that takes a line as a request comes back to its head. -/
theorem AtHead.take (h : AtHead conn call shape (line ++ rest)) (hline : IsFullLine line) (htakes : Takes call.stream.id line) :
    ∃ next call' shape' shared', AtHead next call' shape' rest ∧ call'.stream.id = call.stream.id ∧
      SameEnd settings (conn, shared) (next, shared') := by
  obtain ⟨request, hrequest⟩ := htakes
  obtain ⟨middle, hmiddle, hphase, hsame⟩ := h.receives settings shared hline
  have hafter : afterLine call.stream line = (.ok (some request), { call.stream with bytesIn := call.stream.bytesIn + Utf8.size line }) := by
    rw [afterLine, hrequest]
  rw [hafter] at hphase
  obtain ⟨next, call', shape', shared', hhead, hid, hmore⟩ :=
    runs_to_head settings shared hmiddle hphase h.fed h.uncancelled h.reading rfl
  exact ⟨next, call', shape', shared', hhead, hid, hsame.trans hmore⟩

/-- A call that cannot is over, with the rest of the text left between calls. -/
theorem AtHead.fail (h : AtHead conn call shape (line ++ rest)) (hline : IsFullLine line) {fault : StreamFault}
    (hfault : requestOf call.stream.id line = .error fault) :
    ∃ next shared', Between next rest ∧ SameEnd settings (conn, shared) (next, shared') := by
  obtain ⟨middle, hmiddle, hphase, hsame⟩ := h.receives settings shared hline
  have hafter : afterLine call.stream line = (.error fault.toStatus, { call.stream with bytesIn := call.stream.bytesIn + Utf8.size line }) := by
    rw [afterLine, hfault]
  rw [hafter] at hphase
  obtain ⟨shared', hstep, -⟩ := hmiddle.step_ended settings shared hphase rfl
  refine ⟨_, shared', ?_, hsame.trans (sameEnd_step hmiddle.inputOpen hstep)⟩
  exact ⟨hmiddle.same rfl rfl rfl rfl, rfl⟩

/-- A call that takes all its items reads on; one that does not is over, and its other items have been rejected. -/
theorem AtHead.items {lines : List (List Char)} (h : AtHead conn call shape lines.flatten) (hlines : ∀ line ∈ lines, IsItemLine call.stream.id line) :
    ((∀ line ∈ lines, Takes call.stream.id line) ∧ ∃ next call' shape' shared', AtHead next call' shape' [] ∧ call'.stream.id = call.stream.id ∧
        SameEnd settings (conn, shared) (next, shared')) ∨
      (∃ line ∈ lines, ¬ Takes call.stream.id line) ∧ ∃ next shared', Between next [] ∧ SameEnd settings (conn, shared) (next, shared') := by
  induction lines generalizing conn call shape shared with
  | nil => exact .inl ⟨List.forall_mem_nil _, conn, call, shape, shared, h, rfl, .refl _⟩
  | cons line lines ih =>
    obtain ⟨hline, hlines⟩ := List.forall_mem_cons.mp hlines
    rcases hline.cases with htakes | ⟨fault, hfault⟩
    · obtain ⟨next, call', shape', shared', hhead, hid, hsame⟩ := h.take settings shared hline.leftOver.full htakes
      rw [← hid] at hlines
      rcases ih shared' hhead hlines with
        ⟨hall, last, call'', shape'', shared'', hlast, hid', hmore⟩ | ⟨⟨other, hother, hnot⟩, last, shared'', hlast, hmore⟩
      · rw [hid] at hall hid'
        exact .inl ⟨List.forall_mem_cons.mpr ⟨htakes, hall⟩, last, call'', shape'', shared'', hlast, hid', hsame.trans hmore⟩
      · rw [hid] at hnot
        exact .inr ⟨⟨other, List.mem_cons_of_mem _ hother, hnot⟩, last, shared'', hlast, hsame.trans hmore⟩
    · obtain ⟨next, shared', hbetween, hsame⟩ := h.fail settings shared hline.leftOver.full hfault
      obtain ⟨last, hlast, hmore⟩ := hbetween.leftOvers settings shared' fun other hother => (hlines other hother).leftOver
      have hnot : ¬ Takes call.stream.id line := by
        rintro ⟨request, hrequest⟩
        rw [hfault] at hrequest
        cases hrequest
      exact .inr ⟨⟨line, List.mem_cons_self, hnot⟩, last, shared', hlast, hsame.trans hmore⟩

end

/-! ## From there to the end -/

section

variable (settings : Settings) {conn : Connection} {call : OpenCall} {shape : Shape} (shared : Shared)

theorem Between.toEnd_eq (h : conn.Between []) (lines : List (List Char)) : conn.toEnd (Utf8.encode lines.flatten) = conn.supplied lines 0 := by
  obtain ⟨hinbox, -⟩ := h.opened.eq_nil
  have hidle := h.idle
  obtain ⟨⟨inbox, ended, outbox, room⟩, shutdown, phase, ids, used⟩ := conn
  obtain rfl : inbox = [] := hinbox
  obtain rfl : phase = .idle := hidle
  rfl

theorem AtHead.toEnd_eq (h : AtHead conn call shape []) (lines : List (List Char)) :
    conn.toEnd (Utf8.encode lines.flatten) = conn.supplied lines call.stream.bytesIn := by
  obtain ⟨hinbox, -⟩ := h.opened.eq_nil
  have hserving := h.serving
  obtain ⟨⟨inbox, ended, outbox, room⟩, shutdown, phase, ids, used⟩ := conn
  obtain rfl : inbox = [] := hinbox
  obtain rfl : phase = .serving call := hserving
  rfl

theorem endsAt_idle (hidle : conn.phase = .idle) (hlive : conn.shutdown = false) :
    EndsAt settings (conn.supplied [] 0, shared) (({ conn with phase := .closed none } : Connection).supplied [] 0, shared) := by
  rw [← endsAt_proceed, proceed_supplied_nil settings hidle hlive]
  exact ⟨rfl, 0, rfl⟩

/-- Between calls, one more line that is no request is rejected before the end. -/
theorem Between.endsAt (h : conn.Between []) {line : List Char} (hline : IsLeftOver line) :
    ∃ (last : Connection) (e : JsonError), Request.codec.parse (String.ofList line) = .error e ∧
      EndsAt settings (conn.toEnd [], shared) (last, shared) ∧
      EndsAt settings (conn.toEnd (Utf8.encode line), shared)
        ({ last with wire := { last.wire with outbox := last.wire.outbox ++ Utf8.encode (unreadableResponse e).line } }, shared) := by
  obtain ⟨hfull, e, hparse⟩ := hline
  have hlines : AreLines [line] := textLines_flatten fun other hother => List.mem_singleton.mp hother ▸ hfull
  have hnothing : conn.toEnd [] = conn.supplied [] 0 := h.toEnd_eq []
  have hone : conn.toEnd (Utf8.encode line) = conn.supplied [line] 0 := by rw [← h.toEnd_eq [line], List.flatten_singleton]
  have hroom : (conn.supplied [] 0).wire.room = none := h.opened.room
  refine ⟨({ conn with phase := .closed none } : Connection).supplied [] 0, e, hparse, ?_, ?_⟩
  · rw [hnothing]
    exact endsAt_idle settings shared h.idle h.opened.live
  · rw [hone, ← endsAt_proceed, proceed_supplied_line settings shared h.idle h.opened.live hlines,
      takeLine_of_unreadable settings shared hfull.visible hparse, reject_of_room hroom]
    let rejected : Connection :=
      { conn with wire := { conn.wire with outbox := conn.wire.outbox ++ Utf8.encode (unreadableResponse e).line }, phase := .idle }
    have hidle : rejected.phase = .idle := rfl
    exact endsAt_idle settings shared hidle h.opened.live

/-- A call at its head that finds no more items ends with its reply. All that the lines it finds change is what it has counted. -/
theorem AtHead.endsAt (h : AtHead conn call shape []) :
    ∃ (last : Connection) (shared' : Shared) (event : CallEvent), ∀ lines, AreLines lines → behindVisible lines = [] →
      (∀ line, visible? lines = some line → requestOf call.stream.id line = .ok none) →
      EndsAt settings (conn.toEnd (Utf8.encode lines.flatten), shared)
        (last, shared'.logged (shared.log ++ [{ event with bytesIn := call.stream.bytesIn + Utf8.size (toVisible lines).flatten }])) := by
  have hreceives : Receives call.call call.stream :=
    ⟨congrArg Call.stage h.head, fun item left hshape => Shape.not_isFed_repeated item left (hshape ▸ h.head ▸ h.fed), h.uncancelled, h.reading⟩
  have houtcome : call.call.outcome? = none := by
    rw [h.head]
    rfl
  let finished : Connection := { conn with phase := .serving { call with
    call := .finished call.call.shape (.ok (Call.streamReply call.call.shape)), stream := { call.stream with ended := true } } }
  have hsound : finished.IsSound := ⟨h.opened.room, h.opened.live⟩
  obtain ⟨next, shared', event, hnext, hidle, hends⟩ := hsound.ends settings shared rfl rfl
  refine ⟨({ next with phase := .closed none } : Connection).supplied [] 0, shared', event, fun lines hlines hbehind hfinish => ?_⟩
  have hfinished : afterVisible call.stream (visible? lines) =
      (.ok none, { call.stream with bytesIn := (afterVisible call.stream (visible? lines)).2.bytesIn, ended := true }) := by
    cases hvisible : visible? lines with
    | none => rfl
    | some line =>
      rw [afterVisible, afterLine, hfinish line hvisible]
  have hstep := call_step_receiving settings.limits hreceives hlines shared conn.wire call.stream.bytesIn
  have hproceed := proceed_supplied_serving settings shared h.serving houtcome hstep
  rw [hfinished, hbehind] at hproceed
  have hstep' : proceed settings (conn.supplied lines call.stream.bytesIn, shared) =
      (finished.supplied [] (call.stream.bytesIn + Utf8.size (toVisible lines).flatten), shared.logged shared.log) := hproceed
  rw [h.toEnd_eq lines, ← endsAt_proceed, hstep', ← endsAt_proceed, hends]
  exact endsAt_idle settings _ hidle hnext.live

end

/-! ## The last call of a connection -/

/-- What brings some of a text and leaves the peer there brings the front of any longer text. -/
theorem BringsAll.extend {missing last : List UInt8} {events : List ConnectionEvent} (h : BringsAll missing events last) (hstays : .hangUp ∉ events)
    (more : List UInt8) : BringsAll (missing ++ more) events (last ++ more) := by
  induction h with
  | nil => exact .nil _
  | @cons missing later last event events hevent _ ih =>
    obtain ⟨hfirst, hlater⟩ := not_or.mp (mt List.mem_cons.mpr hstays)
    refine .cons ?_ (ih hlater)
    cases hevent with
    | deliver bytes missing =>
      rw [List.append_assoc]
      exact .deliver bytes _
    | hangUp => exact absurd rfl hfirst
    | shutdown => exact .shutdown _
    | watch => exact .watch _
    | step => exact .step _

/-- A run after which the connection is between calls, with all of the text read and the peer still there. -/
structure ReadsAll (settings : Settings) (shared : Shared) (ids : Nat → String) (orders : Nat → MapOrder) (text : List Char) (events : List ConnectionEvent) : Prop where
  brings : BringsAll (Utf8.encode text) events []
  stays : .hangUp ∉ events
  live : .shutdown ∉ events
  idle : (applyAll settings { ids, orders } shared events).1.phase = .idle
  inbox_eq : (applyAll settings { ids, orders } shared events).1.wire.inbox = []

section

variable {settings : Settings} {shared : Shared} {ids : Nat → String} {orders : Nat → MapOrder} {front text : List Char} {opening : List ConnectionEvent}

/-- While the peer is there, nothing but a shutdown cuts a call short. -/
theorem Accounted.isUndisturbed {missing last : List UInt8} {events : List ConnectionEvent} (hall : BringsAll missing events last)
    (hstays : .hangUp ∉ events) (hlive : .shutdown ∉ events) :
    ∀ {conn : Connection} (shared : Shared), Accounted ids conn missing text → conn.wire.inputEnded = false →
      IsUndisturbed settings conn shared events := by
  induction hall with
  | nil => exact fun _ _ _ => trivial
  | @cons missing later last event events hevent _ ih =>
    intro conn shared haccounted hopen
    obtain ⟨hfirst, hlater⟩ := not_or.mp (mt List.mem_cons.mpr hstays)
    obtain ⟨hquiet, hlive⟩ := not_or.mp (mt List.mem_cons.mpr hlive)
    obtain ⟨hnext, hleads⟩ := haccounted.apply settings shared hevent
    refine ⟨⟨fun heq => hquiet heq.symm, fun _ => ?_⟩, ih hlater hlive _ hnext ?_⟩
    · unfold hearsHangUp Wire.drained
      cases conn.phase with
      | serving call => simp [hopen]
      | _ => rfl
    · rw [Bool.eq_false_iff]
      intro hended
      rcases hleads.inputEnded_iff.mp hended with hbefore | hnow
      · rw [hopen] at hbefore
        cases hbefore
      · exact hfirst (List.mem_singleton.mp hnow)

/-- Where the connection has read the front of a text, the rest of it brings it to the end of the whole text. -/
theorem ReadsAll.endsAt_iff (h : ReadsAll settings shared ids orders front opening) (more : List Char) (last : Connection × Shared) :
    EndsAt settings ((applyAll settings { ids, orders } shared opening).1.toEnd (Utf8.encode more), (applyAll settings { ids, orders } shared opening).2) last ↔
      EndsAt settings (({ ids, orders } : Connection).toEnd (Utf8.encode (front ++ more)), shared) last := by
  have hbrings := h.brings.extend h.stays (Utf8.encode more)
  rw [← Utf8.encode_append, List.nil_append] at hbrings
  have haccounted := accounted_start ids orders (front ++ more)
  exact haccounted.endsAt_applyAll hbrings shared (haccounted.isUndisturbed hbrings h.stays h.live shared rfl)

theorem ReadsAll.between (h : ReadsAll settings shared ids orders front opening) : (applyAll settings { ids, orders } shared opening).1.Between [] := by
  have hleads := ((accounted_start ids orders front).applyAll settings h.brings shared).2
  have hroom := (prolongs_applyAll settings shared (show ({ ids, orders } : Connection).wire.room = none from rfl) opening).room
  have hopen : (applyAll settings { ids, orders } shared opening).1.wire.inputEnded = false := by
    rw [Bool.eq_false_iff]
    intro hended
    exact (hleads.inputEnded_iff.mp hended).elim Bool.false_ne_true h.stays
  have hlive : (applyAll settings { ids, orders } shared opening).1.shutdown = false := by
    rw [Bool.eq_false_iff]
    intro hshutdown
    exact (hleads.shutdown_iff.mp hshutdown).elim Bool.false_ne_true h.live
  exact ⟨⟨⟨⟨(List.append_nil _).trans h.inbox_eq, fun _ => rfl⟩, hopen, hroom⟩, hlive⟩, h.idle⟩

theorem Between.deliver {conn : Connection} (h : conn.Between []) (text : List Char) :
    ({ conn with wire := conn.wire.deliver (Utf8.encode text) } : Connection).Between text := by
  have hopen := h.opened.toIsOpen.append text
  rw [List.nil_append, List.nil_append, ← List.append_nil (Utf8.encode text)] at hopen
  exact ⟨⟨Wire.IsOpen.deliver hopen, h.opened.live⟩, h.idle⟩

/-- Whatever follows a stream, the connection comes to the end that it comes to from the head of the call, or from between calls where the call has not taken all of its items. -/
theorem ReadsAll.stream (h : ReadsAll settings shared ids orders front opening) {line : List Char} {request : Request} {items : List (List Char)}
    (hline : IsFullLine line) (hopens : Opens line request) (hreads : readsStream request.method = true)
    (hitems : ∀ item ∈ items, IsItemLine request.id item) :
    ∃ next shared', (∀ more last, EndsAt settings (next.toEnd (Utf8.encode more), shared') last ↔
        EndsAt settings (({ ids, orders } : Connection).toEnd (Utf8.encode (front ++ line ++ items.flatten ++ more)), shared) last) ∧
      (((∀ item ∈ items, Takes request.id item) ∧ ∃ call shape, AtHead next call shape [] ∧ call.stream.id = request.id) ∨
        (∃ item ∈ items, ¬ Takes request.id item) ∧ next.Between []) := by
  obtain ⟨begun, call, shape, shared₁, hhead, hid, hsame⟩ :=
    (h.between.deliver (line ++ items.flatten)).begins settings (applyAll settings { ids, orders } shared opening).2 hline hopens hreads
  have hwhole {next : Connection} {shared' : Shared} (hmore : SameEnd settings (begun, shared₁) (next, shared')) (more : List Char)
      (last : Connection × Shared) : EndsAt settings (next.toEnd (Utf8.encode more), shared') last ↔
        EndsAt settings (({ ids, orders } : Connection).toEnd (Utf8.encode (front ++ line ++ items.flatten ++ more)), shared) last := by
    have htext : front ++ line ++ items.flatten ++ more = front ++ (line ++ items.flatten ++ more) := by simp only [List.append_assoc]
    rw [(hsame.trans hmore) (Utf8.encode more) last, htext, ← h.endsAt_iff, Utf8.encode_append (line ++ items.flatten), ← toEnd_deliver]
  rw [← hid] at hitems ⊢
  rcases hhead.items settings shared₁ hitems with ⟨hall, next, call', shape', shared', hlast, hid', hmore⟩ | ⟨hnot, next, shared', hlast, hmore⟩
  · exact ⟨next, shared', hwhole hmore, .inl ⟨hall, call', shape', hlast, hid'⟩⟩
  · exact ⟨next, shared', hwhole hmore, .inr ⟨hnot, hlast⟩⟩

/-- The end frame is no blank line and no request. -/
theorem isLeftOver_finish (id : Option RequestId) : IsLeftOver (Frame.finish id).line :=
  isLeftOver_line (show (Frame.finish id).data.IsWritable from trivial)

/-- What a connection does with the stream of its last call where the peer hangs up behind the items, and where it hangs up behind an end frame. -/
structure ClosesAlike (id : Option RequestId) (items : List (List Char)) (last last' : Connection × Shared) : Prop where
  /-- The call ends the same way, and its entry has counted the end frame. -/
  taken : (∀ item ∈ items, Takes id item) → SameOutcome last last' ∧ ∃ log event, last.2.log = log ++ [event] ∧
    last'.2.log = log ++ [{ event with bytesIn := event.bytesIn + Utf8.size (Frame.finish id).line }]
  /-- The call has ended before, and the end frame is rejected. -/
  leftOver : (∃ item ∈ items, ¬ Takes id item) → last'.2 = last.2 ∧ ∃ e, Request.codec.parse (String.ofList (Frame.finish id).line) = .error e ∧
    last'.1.wire.outbox = last.1.wire.outbox ++ Utf8.encode (unreadableResponse e).line

theorem ClosesAlike.outbox_eq_iff {id : Option RequestId} {items : List (List Char)} {last last' : Connection × Shared}
    (h : ClosesAlike id items last last') : last'.1.wire.outbox = last.1.wire.outbox ↔ ∀ item ∈ items, Takes id item := by
  refine ⟨fun hsame => ?_, fun hall => (h.taken hall).1.outbox_eq⟩
  by_contra hnot
  push Not at hnot
  obtain ⟨-, e, -, houtbox⟩ := h.leftOver hnot
  rw [hsame, List.self_eq_append_right, Utf8.encode_eq_nil_iff] at houtbox
  exact absurd houtbox (List.append_ne_nil_of_right_ne_nil _ (List.cons_ne_nil _ _))

theorem IsComplete.closesAlike {line : List Char} {request : Request} {items : List (List Char)} {events events' : List ConnectionEvent}
    (h : IsComplete settings shared ids orders (front ++ line ++ items.flatten) events)
    (h' : IsComplete settings shared ids orders (front ++ line ++ items.flatten ++ (Frame.finish request.id).line) events')
    (hfront : ReadsAll settings shared ids orders front opening) (hline : IsFullLine line) (hopens : Opens line request)
    (hreads : readsStream request.method = true) (hitems : ∀ item ∈ items, IsItemLine request.id item) :
    ClosesAlike request.id items (applyAll settings { ids, orders } shared events) (applyAll settings { ids, orders } shared events') := by
  obtain ⟨next, shared', hiff, hnext⟩ := hfront.stream hline hopens hreads hitems
  have hend := (hiff [] _).mpr (by rw [List.append_nil]; exact h.endsAt)
  have hend' := (hiff (Frame.finish request.id).line _).mpr h'.endsAt
  rcases hnext with ⟨hall, call, shape, hhead, hid⟩ | ⟨hnot, hbetween⟩
  · obtain ⟨last, books, event, hlast⟩ := hhead.endsAt settings shared'
    have hfull := (isLeftOver_finish request.id).full
    obtain ⟨htaken, hvisible, hbehind⟩ := skim_visible [] hfull.visible
    have hfirst := hlast [] rfl rfl (fun other hother => by cases hother)
    have hsecond := hlast [(Frame.finish request.id).line] (textLines_flatten fun other hother => List.mem_singleton.mp hother ▸ hfull) hbehind
      fun other hother => by
        rw [hvisible] at hother
        obtain rfl := Option.some.inj hother
        rw [hid]
        exact requestOf_finish request.id
    rw [htaken, List.flatten_singleton] at hsecond
    have hrun := hend.unique hfirst
    have hrun' := hend'.unique hsecond
    have houtbox : (applyAll settings { ids, orders } shared events).1.wire.outbox = last.wire.outbox := congrArg (fun state => state.1.wire.outbox) hrun
    have houtbox' : (applyAll settings { ids, orders } shared events').1.wire.outbox = last.wire.outbox := congrArg (fun state => state.1.wire.outbox) hrun'
    have hbooks := congrArg Prod.snd hrun
    have hbooks' := congrArg Prod.snd hrun'
    dsimp only at hbooks hbooks'
    refine ⟨fun _ => ⟨⟨houtbox'.trans houtbox.symm, by rw [hbooks, hbooks']; rfl, by rw [hbooks, hbooks']; rfl⟩, shared'.log,
      { event with bytesIn := call.stream.bytesIn }, by rw [hbooks]; rfl, by rw [hbooks']; rfl⟩, fun ⟨item, hitem, hnot⟩ => ?_⟩
    exact absurd (hall item hitem) hnot
  · obtain ⟨last, e, hparse, hfirst, hsecond⟩ := hbetween.endsAt settings shared' (isLeftOver_finish request.id)
    have hrun := hend.unique hfirst
    have hrun' := hend'.unique hsecond
    refine ⟨fun hall => ?_, fun _ => ⟨?_, e, hparse, ?_⟩⟩
    · obtain ⟨item, hitem, hnot⟩ := hnot
      exact absurd (hall item hitem) hnot
    · exact (congrArg Prod.snd hrun').trans (congrArg Prod.snd hrun).symm
    · have houtbox : (applyAll settings { ids, orders } shared events).1.wire.outbox = last.wire.outbox := congrArg (fun state => state.1.wire.outbox) hrun
      rw [houtbox]
      exact congrArg (fun state => state.1.wire.outbox) hrun'

end

/-- Blank lines do not matter, and how the last stream is closed matters only where one of its items cannot be taken.

The ids and the orders of metadata are the same in all runs. Complete runs over a text and over the same text with blank lines write, draw and count the same, and the entry of a call grows by the blank lines in its stream. Complete runs in which the last call reads a stream, closed by the peer hanging up or by an end frame before it does, write the same exactly where the call takes every item; where it does not, the end frame is answered as well. -/
theorem blank_lines_and_closings (settings : Settings) (shared : Shared) (ids : Nat → String) (orders : Nat → MapOrder) :
    (∀ {text text' : List Char} {blanks : List (List Char)} {events events' : List ConnectionEvent}, Padded blanks (textLines text) (textLines text') →
      IsComplete settings shared ids orders text events → IsComplete settings shared ids orders text' events' →
      let last := applyAll settings { ids, orders } shared events
      let last' := applyAll settings { ids, orders } shared events'
      SameOutcome last last' ∧ PaddedLogs shared.log (textLines text) (textLines text') last.2.log last'.2.log) ∧
    (∀ {front line : List Char} {request : Request} {items : List (List Char)} {opening events events' : List ConnectionEvent},
      ReadsAll settings shared ids orders front opening → IsFullLine line → Opens line request → readsStream request.method = true →
      (∀ item ∈ items, IsItemLine request.id item) →
      IsComplete settings shared ids orders (front ++ line ++ items.flatten) events →
      IsComplete settings shared ids orders (front ++ line ++ items.flatten ++ (Frame.finish request.id).line) events' →
      let last := applyAll settings { ids, orders } shared events
      let last' := applyAll settings { ids, orders } shared events'
      ClosesAlike request.id items last last' ∧ (last'.1.wire.outbox = last.1.wire.outbox ↔ ∀ item ∈ items, Takes request.id item)) := by
  constructor
  · intro text text' blanks events events' hpadded h h'
    exact h.padded h' hpadded
  · intro front line request items opening events events' hfront hline hopens hreads hitems h h'
    have hcloses := h.closesAlike h' hfront hline hopens hreads hitems
    exact ⟨hcloses, hcloses.outbox_eq_iff⟩

/-- A call with two ids and two items, of which the second one is a number: the blank lines are passed over, and the end frame is answered. -/
theorem blank_lines_and_closings_number_for_item :
    let settings : Settings := { limits := .unbounded }
    let shared : Shared := { draws := .cycle [] }
    let id := some (RequestId.number 1)
    let request := { Request.new (.number 1) exchangeMethod .null with metadata := [(Metadata.traceIdKey, "t")] }
    let orders (_ : Nat) := MapOrder.reversed
    let items := [(Frame.item id (.object [("request_id", .string "a")])).line, (Frame.item id (.number (.natural 5))).line]
    let text := ['\n'] ++ request.line ++ items.flatten
    let spaced := [' ', '\n', '\n'] ++ request.line ++ items.flatMap fun item => item ++ [' ', '\n']
    let events (text : List Char) := ConnectionEvent.deliver (Utf8.encode text) :: .hangUp :: List.replicate 20 .step
    let last (text : List Char) := applyAll settings { ids := toString, orders } shared (events text)
    SameOutcome (last text) (last spaced) ∧ (last spaced).2.log.map CallEvent.bytesIn = (last text).2.log.map (CallEvent.bytesIn · + 2) ∧
      (last (text ++ (Frame.finish id).line)).1.wire.outbox ≠ (last text).1.wire.outbox := by
  intro settings shared id request orders items text spaced events last
  have hclosed : (last text).1.isClosed = true ∧ (last spaced).1.isClosed = true ∧ (last (text ++ (Frame.finish id).line)).1.isClosed = true := by
    decide +kernel
  have hrun : IsComplete settings shared toString orders text (events text) := by
    apply isComplete_at_once
    with_reducible exact hclosed.1
  have hspaced : IsComplete settings shared toString orders spaced (events spaced) := by
    apply isComplete_at_once
    with_reducible exact hclosed.2.1
  have hfinished : IsComplete settings shared toString orders (text ++ (Frame.finish id).line) (events (text ++ (Frame.finish id).line)) := by
    apply isComplete_at_once
    with_reducible exact hclosed.2.2
  have hlines : textLines text = ['\n'] :: request.line :: items ∧
      textLines spaced = [' ', '\n'] :: ['\n'] :: request.line :: items.flatMap fun item => [item, [' ', '\n']] := by
    decide +kernel
  have hpadded : Padded [[' ', '\n'], [' ', '\n'], [' ', '\n']] (textLines text) (textLines spaced) := by
    rw [hlines.1, hlines.2]
    exact .blank rfl (.line _ (.line _ (.line _ (.blank rfl (.line _ (.blank rfl .nil))))))
  have hopens : Opens request.line request := ⟨rfl, Request.parse_line trivial (Nat.zero_lt_succ _), rfl⟩
  have hitems : ∀ item ∈ items, IsItemLine id item :=
    List.forall_mem_cons.mpr ⟨isItemLine_item id (show Json.IsWritable _ from ⟨trivial, trivial⟩),
      List.forall_mem_singleton.mpr (isItemLine_item id trivial)⟩
  have hnumber : takes id (.number (.natural 5)) = false := by decide +kernel
  have hnot : ¬ ∀ item ∈ items, Takes id item := fun hall => by
    have htakes := (takes_item_iff id _).mp (hall _ (List.mem_cons_of_mem _ List.mem_cons_self))
    rw [hnumber] at htakes
    cases htakes
  obtain ⟨hpads, hcloses⟩ := blank_lines_and_closings settings shared toString orders
  have hfront : ReadsAll settings shared toString orders ['\n'] [.deliver (Utf8.encode ['\n']), .step] := by
    refine ⟨.deliver (.cons (.step []) (.nil [])), by simp, by simp, rfl, rfl⟩
  have hsame := (hpads hpadded hrun hspaced).1
  have hiff := (hcloses hfront (isFullLine_lineOf Request.record request) hopens rfl hitems hrun hfinished).2
  refine ⟨?_, ?_, ?_⟩
  · with_reducible exact hsame
  · decide +kernel
  · intro heq
    refine hnot (hiff.mp ?_)
    with_reducible exact heq

end LoadGenerator.Connection
