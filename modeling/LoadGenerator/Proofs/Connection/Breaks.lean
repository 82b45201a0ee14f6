import LoadGenerator.Proofs.Connection.Inbound
import LoadGenerator.Proofs.Connection.WriteFailure

/-!
# Connections whose transport fails

A transport fails at some byte of the output and keeps failing. The run over it is that over a sound transport up to the step that writes this byte, and so are the books; what has left is the output of the sound run up to the byte. From then on nothing leaves, no line is read and no item is run, and a call that is still open ends with one entry.
-/

namespace LoadGenerator

/-! ## Outputs that only grow -/

/-- The output of a sound wire is continued. -/
structure Wire.Prolongs (wire next : Wire) : Prop where
  room : next.room = none
  outbox : wire.outbox <+: next.outbox

theorem Wire.Prolongs.refl {wire : Wire} (hroom : wire.room = none) : wire.Prolongs wire := ⟨hroom, List.prefix_rfl⟩

theorem Wire.Prolongs.trans {wire next last : Wire} (h : wire.Prolongs next) (hmore : next.Prolongs last) : wire.Prolongs last :=
  ⟨hmore.room, h.outbox.trans hmore.outbox⟩

theorem Wire.Prolongs.length_le {wire next : Wire} (h : wire.Prolongs next) : wire.outbox.length ≤ next.outbox.length := h.outbox.length_le

theorem Wire.prolongs_write {wire : Wire} (hroom : wire.room = none) (bytes : List UInt8) : wire.Prolongs (wire.write bytes).2 := by
  rw [Connection.write_of_room hroom]
  exact ⟨hroom, List.prefix_append _ _⟩

namespace Connection

open Message Service

section

variable (settings : Settings) {conn : Connection} (shared : Shared)

theorem prolongs_writeLine (line : List Char) {wire : Wire} (hroom : wire.room = none) (stream : CallStream) :
    wire.Prolongs (writeLine line (wire, stream)).2.1 := by
  rw [writeLine_of_room hroom]
  exact ⟨hroom, List.prefix_append _ _⟩

theorem prolongs_takeLine (hroom : conn.wire.room = none) (text : List Char) : conn.wire.Prolongs (takeLine settings conn shared text).1.wire := by
  unfold takeLine
  split_ifs
  · exact .refl hroom
  · cases Request.codec.parse (String.ofList text) with
    | error e => exact Wire.prolongs_write hroom _
    | ok request =>
      dsimp only
      split_ifs
      · exact Wire.prolongs_write hroom _
      · exact .refl hroom

theorem prolongs_call_step (limits : Load.Limits) (call : Call) {wire : Wire} (hroom : wire.room = none) (stream : CallStream) :
    wire.Prolongs (call.step peer limits shared (wire, stream)).2.2.2.1 := by
  cases hstage : call.stage with
  | sending response =>
    obtain ⟨shape, stage⟩ := call
    obtain rfl : stage = .sending response := hstage
    simp only [Call.step, peer, send_of_room hroom]
    exact ⟨hroom, List.prefix_append _ _⟩
  | _ =>
    have hquiet := call_step_failingAt limits (show ∀ response, call.stage ≠ .sending response by simp [hstage]) shared 0 wire stream
    generalize call.step peer limits shared (wire, stream) = result at hquiet ⊢
    obtain ⟨act, next, shared', wire', stream'⟩ := result
    obtain ⟨-, inbox, rfl⟩ := hquiet
    exact ⟨hroom, List.prefix_rfl⟩

theorem prolongs_step (hroom : conn.wire.room = none) : conn.wire.Prolongs (conn.step settings shared).1.wire := by
  cases hphase : conn.phase with
  | closed failure =>
    rw [step, hphase]
    exact .refl hroom
  | serving call =>
    rw [step_of_serving settings shared hphase, stepCall]
    cases call.call.outcome? with
    | some outcome => exact prolongs_writeLine _ hroom call.stream
    | none => exact prolongs_call_step shared settings.limits call.call hroom call.stream
  | idle =>
    obtain ⟨inbox, hframe⟩ := conn.wire.readLine_frame
    rw [step_of_idle settings shared hphase, stepIdle]
    split_ifs
    · exact .refl hroom
    · rcases hread : conn.wire.readLine with ⟨read, next⟩
      rw [hread] at hframe
      obtain rfl : next = { conn.wire with inbox } := hframe
      have hnext : ({ conn with wire := { conn.wire with inbox } } : Connection).wire.room = none := hroom
      have hsame : conn.wire.Prolongs { conn.wire with inbox } := ⟨hroom, List.prefix_rfl⟩
      cases read with
      | line text => exact hsame.trans (prolongs_takeLine settings shared hnext text)
      | malformed fault => exact hsame
      | _ => exact .refl hroom

/-- Any other event is the same over a transport that fails, and leaves the output as it is. -/
theorem apply_failingAt {event : ConnectionEvent} (hevent : event ≠ .step) (conn : Connection) (total : Nat) :
    (conn.failingAt total).apply settings shared event = ((conn.apply settings shared event).1.failingAt total, (conn.apply settings shared event).2) ∧
      (conn.apply settings shared event).1.wire.outbox = conn.wire.outbox ∧
      (conn.apply settings shared event).1.wire.room = conn.wire.room := by
  obtain ⟨wire, shutdown, phase, ids, used, orders, opened⟩ := conn
  cases event with
  | step => exact absurd rfl hevent
  | deliver bytes => exact ⟨rfl, rfl, rfl⟩
  | hangUp => exact ⟨rfl, rfl, rfl⟩
  | shutdown => cases phase <;> exact ⟨rfl, rfl, rfl⟩
  | abort => cases phase <;> exact ⟨rfl, rfl, rfl⟩
  | watch =>
    cases phase with
    | serving call =>
      have hdrained : (wire.failingAt total).drained = wire.drained := rfl
      have hinbox : (wire.failingAt total).inbox = wire.inbox := rfl
      simp only [Connection.apply, Connection.watch, failingAt, hdrained, hinbox]
      split_ifs <;> exact ⟨rfl, rfl, rfl⟩
    | _ => exact ⟨rfl, rfl, rfl⟩

theorem prolongs_apply (hroom : conn.wire.room = none) (event : ConnectionEvent) :
    conn.wire.Prolongs (conn.apply settings shared event).1.wire := by
  by_cases hevent : event = .step
  · subst hevent
    exact prolongs_step settings shared hroom
  · obtain ⟨-, houtbox, hsame⟩ := apply_failingAt settings shared hevent conn 0
    exact ⟨hsame.trans hroom, by rw [houtbox]⟩

theorem prolongs_applyAll (hroom : conn.wire.room = none) (events : List ConnectionEvent) :
    conn.wire.Prolongs (conn.applyAll settings shared events).1.wire := by
  induction events generalizing conn shared with
  | nil => exact .refl hroom
  | cons event events ih =>
    have hevent := prolongs_apply settings shared hroom event
    exact hevent.trans (ih _ hevent.room)

theorem prolongs_applyAll_append (hroom : conn.wire.room = none) (events more : List ConnectionEvent) :
    (conn.applyAll settings shared events).1.wire.Prolongs (conn.applyAll settings shared (events ++ more)).1.wire := by
  rw [applyAll_append]
  exact prolongs_applyAll settings _ (prolongs_applyAll settings shared hroom events).room more

theorem prolongs_proceed (hroom : conn.wire.room = none) (steps : Nat) :
    conn.wire.Prolongs ((proceed settings)^[steps] (conn, shared)).1.wire := by
  induction steps generalizing conn shared with
  | zero => exact .refl hroom
  | succ steps ih =>
    have hstep : conn.wire.Prolongs (proceed settings (conn, shared)).1.wire := prolongs_step settings shared hroom
    exact hstep.trans (ih _ hstep.room)

end

/-! ## Up to the failure -/

/-- No event of the run cuts a call short. -/
def IsUndisturbed (settings : Settings) : Connection → Shared → List ConnectionEvent → Prop
  | _, _, [] => True
  | conn, shared, event :: events =>
    conn.Undisturbed event ∧ IsUndisturbed settings (conn.apply settings shared event).1 (conn.apply settings shared event).2 events

section

variable (settings : Settings) {conn : Connection} {total : Nat} (shared : Shared)

theorem isUndisturbed_append {before more : List ConnectionEvent} :
    IsUndisturbed settings conn shared (before ++ more) ↔
      IsUndisturbed settings conn shared before ∧
        IsUndisturbed settings (conn.applyAll settings shared before).1 (conn.applyAll settings shared before).2 more := by
  induction before generalizing conn shared with
  | nil => exact (and_iff_right trivial).symm
  | cons event before ih => exact (and_congr_right fun _ => ih _).trans and_assoc.symm

theorem apply_failingAt_of_fits (hroom : conn.wire.room = none) {event : ConnectionEvent}
    (hfits : (conn.apply settings shared event).1.wire.outbox.length ≤ total) :
    (conn.failingAt total).apply settings shared event = ((conn.apply settings shared event).1.failingAt total, (conn.apply settings shared event).2) := by
  have hbefore : conn.wire.outbox.length ≤ total := (prolongs_apply settings shared hroom event).length_le.trans hfits
  by_cases hevent : event = .step
  · subst hevent
    exact (step_failingAt settings hroom hbefore shared).fits hfits
  · exact (apply_failingAt settings shared hevent conn total).1

/-- A run that writes no more than the transport takes is that over a sound one. -/
theorem applyAll_failingAt (hroom : conn.wire.room = none) {events : List ConnectionEvent}
    (hfits : (conn.applyAll settings shared events).1.wire.outbox.length ≤ total) :
    (conn.failingAt total).applyAll settings shared events =
        ((conn.applyAll settings shared events).1.failingAt total, (conn.applyAll settings shared events).2) ∧
      (IsUndisturbed settings (conn.failingAt total) shared events ↔ IsUndisturbed settings conn shared events) := by
  induction events generalizing conn shared with
  | nil => exact ⟨rfl, Iff.rfl⟩
  | cons event events ih =>
    have hnext := prolongs_apply settings shared hroom event
    -- Outputs only grow, so what fits in the end fits after this event.
    have hevent := apply_failingAt_of_fits settings shared hroom ((prolongs_applyAll settings _ hnext.room events).length_le.trans hfits)
    obtain ⟨hrest, hquiet⟩ := ih _ hnext.room hfits
    have hundisturbed : (conn.failingAt total).Undisturbed event ↔ conn.Undisturbed event := ⟨fun h => ⟨h.live, h.unheard⟩, fun h => ⟨h.live, h.unheard⟩⟩
    have hrun : (conn.failingAt total).applyAll settings shared (event :: events) =
        ((conn.apply settings shared event).1.failingAt total).applyAll settings (conn.apply settings shared event).2 events :=
      congrArg (fun state => state.1.applyAll settings state.2 events) hevent
    refine ⟨hrun.trans hrest, ?_⟩
    rw [IsUndisturbed, IsUndisturbed, hundisturbed, hevent]
    exact and_congr_right fun _ => hquiet

/-- A run that writes more has a step that does. -/
theorem exists_step_past (hbefore : conn.wire.outbox.length ≤ total) {events : List ConnectionEvent}
    (hpast : total < (conn.applyAll settings shared events).1.wire.outbox.length) :
    ∃ before after, events = before ++ .step :: after ∧
      let state := conn.applyAll settings shared before
      state.1.wire.outbox.length ≤ total ∧ total < (state.1.step settings state.2).1.wire.outbox.length := by
  induction events generalizing conn shared with
  | nil => exact absurd hpast (Nat.not_lt.mpr hbefore)
  | cons event events ih =>
    rcases Nat.lt_or_ge total (conn.apply settings shared event).1.wire.outbox.length with hthere | hlater
    · obtain rfl : event = .step := by
        by_contra hevent
        rw [(apply_failingAt settings shared hevent conn total).2.1] at hthere
        exact absurd hthere (Nat.not_lt.mpr hbefore)
      exact ⟨[], events, rfl, hbefore, hthere⟩
    · obtain ⟨before, after, rfl, hbreak⟩ := ih _ hlater hpast
      exact ⟨event :: before, after, rfl, hbreak⟩

end

/-! ## From the failure on -/

/-- No line has been read and no call opened; the inbox has all that has arrived. -/
structure ReadsNothing (conn : Connection) (events : List ConnectionEvent) (next : Connection) : Prop where
  inbox : next.wire.inbox = conn.wire.inbox ++ events.flatMap ConnectionEvent.delivered
  idsUsed : next.idsUsed = conn.idsUsed
  callsOpened : next.callsOpened = conn.callsOpened

/-- Nothing has been read and nothing written. -/
structure Rests (conn : Connection) (events : List ConnectionEvent) (next : Connection) : Prop extends conn.ReadsNothing events next where
  outbox : next.wire.outbox = conn.wire.outbox

theorem Rests.refl (conn : Connection) : conn.Rests [] conn := ⟨⟨(List.append_nil _).symm, rfl, rfl⟩, rfl⟩

theorem Rests.trans {conn next last : Connection} {events more : List ConnectionEvent} (h : conn.Rests events next) (hmore : next.Rests more last) :
    conn.Rests (events ++ more) last where
  inbox := by rw [hmore.inbox, h.inbox, List.flatMap_append, List.append_assoc]
  idsUsed := hmore.idsUsed.trans h.idsUsed
  callsOpened := hmore.callsOpened.trans h.callsOpened
  outbox := hmore.outbox.trans h.outbox

section

variable (settings : Settings) {conn : Connection} (shared : Shared)

theorem rests_apply {event : ConnectionEvent} (hevent : event ≠ .step) (conn : Connection) : conn.Rests [event] (conn.apply settings shared event).1 := by
  obtain ⟨wire, shutdown, phase, ids, used, orders, opened⟩ := conn
  have hnothing : wire.inbox = wire.inbox ++ [] := (List.append_nil _).symm
  cases event with
  | step => exact absurd rfl hevent
  | deliver bytes => exact ⟨⟨by simp [Connection.apply, Wire.deliver, ConnectionEvent.delivered], rfl, rfl⟩, rfl⟩
  | hangUp => exact ⟨⟨hnothing, rfl, rfl⟩, rfl⟩
  | shutdown => cases phase <;> exact ⟨⟨hnothing, rfl, rfl⟩, rfl⟩
  | abort => cases phase <;> exact ⟨⟨hnothing, rfl, rfl⟩, rfl⟩
  | watch =>
    cases phase with
    | serving call =>
      simp only [Connection.apply, Connection.watch]
      split_ifs <;> exact ⟨⟨hnothing, rfl, rfl⟩, rfl⟩
    | _ => exact ⟨⟨hnothing, rfl, rfl⟩, rfl⟩

theorem apply_of_closed {failure : Option String} (hphase : conn.phase = .closed failure) (event : ConnectionEvent) :
    conn.Rests [event] (conn.apply settings shared event).1 ∧ (conn.apply settings shared event).1.phase = .closed failure ∧
      (conn.apply settings shared event).2 = shared := by
  obtain ⟨wire, shutdown, phase, ids, used, orders, opened⟩ := conn
  obtain rfl : phase = .closed failure := hphase
  cases event with
  | step => exact ⟨⟨⟨(List.append_nil _).symm, rfl, rfl⟩, rfl⟩, rfl, rfl⟩
  | deliver bytes => exact ⟨rests_apply settings shared (by simp) _, rfl, rfl⟩
  | hangUp => exact ⟨rests_apply settings shared (by simp) _, rfl, rfl⟩
  | shutdown => exact ⟨rests_apply settings shared (by simp) _, rfl, rfl⟩
  | abort => exact ⟨rests_apply settings shared (by simp) _, rfl, rfl⟩
  | watch => exact ⟨rests_apply settings shared (by simp) _, rfl, rfl⟩

/-- A closed connection stays as it is, whatever arrives. -/
theorem applyAll_of_closed {failure : Option String} (hphase : conn.phase = .closed failure) (events : List ConnectionEvent) :
    conn.Rests events (conn.applyAll settings shared events).1 ∧ (conn.applyAll settings shared events).1.phase = .closed failure ∧
      (conn.applyAll settings shared events).2 = shared := by
  induction events generalizing conn shared with
  | nil => exact ⟨.refl conn, hphase, rfl⟩
  | cons event events ih =>
    obtain ⟨hevent, hphase', hshared⟩ := apply_of_closed settings shared hphase event
    obtain ⟨hrest, hlast, hsame⟩ := ih (conn.apply settings shared event).2 hphase'
    exact ⟨hevent.trans hrest, hlast, hsame.trans hshared⟩

/-- The open call is over, and its transport takes nothing of its response. -/
structure HasEnded (conn : Connection) (call : OpenCall) (outcome : Except Status Reply) : Prop where
  full : conn.wire.room = some 0
  serving : ∃ other, conn.phase = .serving other ∧ other.call.outcome? = some outcome ∧ other.event outcome = call.event outcome

variable {call : OpenCall} {outcome : Except Status Reply}

theorem writeLine_of_full {wire : Wire} (hfull : wire.room = some 0) {line : List Char} (hline : line ≠ []) (stream : CallStream) :
    writeLine line (wire, stream) = (false, wire, stream) := by
  have hbytes : Utf8.encode line ≠ [] := fun hnil => hline (Utf8.encode_eq_nil_iff.mp hnil)
  have hpart : decide ((Utf8.encode line).length ≤ 0) = false := decide_eq_false fun hle => hbytes (List.length_eq_zero_iff.mp (Nat.le_zero.mp hle))
  obtain ⟨inbox, ended, outbox, room⟩ := wire
  obtain rfl : room = some 0 := hfull
  simp only [writeLine, Wire.write, hpart, List.take_zero, List.append_nil, Nat.zero_sub]

/-- A call that is over is counted and logged with the next step, and closes the connection. -/
theorem HasEnded.step (h : conn.HasEnded call outcome) :
    conn.step settings shared = ({ conn with phase := .closed (some Wire.writeFailure) }, shared.post (.finished (call.event outcome))) := by
  obtain ⟨hfull, other, hphase, houtcome, hevent⟩ := h
  have hline : (other.response outcome).line ≠ [] := List.append_ne_nil_of_right_ne_nil _ (List.cons_ne_nil _ _)
  rw [step_of_serving settings shared hphase, stepCall, houtcome]
  dsimp only
  rw [closeCall, writeLine_of_full hfull hline, ← hevent]
  rfl

theorem HasEnded.apply (h : conn.HasEnded call outcome) {missing later : List UInt8} {event : ConnectionEvent} (hbrings : Brings missing event later)
    (hevent : event ≠ .step) : (conn.apply settings shared event).1.HasEnded call outcome ∧ (conn.apply settings shared event).2 = shared := by
  obtain ⟨hfull, other, hphase, houtcome, hsame⟩ := h
  cases hbrings with
  | step => exact absurd rfl hevent
  | deliver bytes => exact ⟨⟨hfull, other, hphase, houtcome, hsame⟩, rfl⟩
  | hangUp => exact ⟨⟨hfull, other, hphase, houtcome, hsame⟩, rfl⟩
  | shutdown =>
    refine ⟨?_, rfl⟩
    simp only [Connection.apply, cancelCall, hphase]
    exact ⟨hfull, _, rfl, houtcome, hsame⟩
  | watch =>
    refine ⟨?_, rfl⟩
    simp only [Connection.apply, Connection.watch, hphase, cancelCall]
    split_ifs
    · exact ⟨hfull, other, hphase, houtcome, hsame⟩
    · exact ⟨hfull, _, rfl, houtcome, hsame⟩
    · exact ⟨hfull, other, hphase, houtcome, hsame⟩
    · exact ⟨hfull, _, rfl, houtcome, hsame⟩

/-- Such a call stays as it is until a step ends it with its one entry. -/
theorem HasEnded.applyAll {missing last : List UInt8} {events : List ConnectionEvent} (hall : BringsAll missing events last) :
    ∀ {conn : Connection} (shared : Shared), conn.HasEnded call outcome →
      conn.Rests events (conn.applyAll settings shared events).1 ∧
        (.step ∈ events → (conn.applyAll settings shared events).1.phase = .closed (some Wire.writeFailure) ∧
          (conn.applyAll settings shared events).2 = shared.post (.finished (call.event outcome))) ∧
        (.step ∉ events → (conn.applyAll settings shared events).1.HasEnded call outcome ∧ (conn.applyAll settings shared events).2 = shared) := by
  induction hall with
  | nil missing => exact fun {conn} shared h => ⟨.refl conn, fun hstep => (by cases hstep), fun _ => ⟨h, rfl⟩⟩
  | @cons missing later last event events hbrings _ ih =>
    intro conn shared h
    by_cases hevent : event = .step
    · subst hevent
      have hrun : conn.applyAll settings shared (.step :: events) =
          Connection.applyAll settings { conn with phase := .closed (some Wire.writeFailure) } (shared.post (.finished (call.event outcome))) events :=
        congrArg (fun state => state.1.applyAll settings state.2 events) (h.step settings shared)
      obtain ⟨hrest, hphase, hshared⟩ := applyAll_of_closed settings (shared.post (.finished (call.event outcome)))
        (show ({ conn with phase := .closed (some Wire.writeFailure) } : Connection).phase = .closed (some Wire.writeFailure) from rfl) events
      rw [hrun]
      exact ⟨⟨⟨hrest.inbox, hrest.idsUsed, hrest.callsOpened⟩, hrest.outbox⟩, fun _ => ⟨hphase, hshared⟩, fun hnone => absurd List.mem_cons_self hnone⟩
    · obtain ⟨hnext, hsame⟩ := h.apply settings shared hbrings hevent
      have hrun : conn.applyAll settings shared (event :: events) = (conn.apply settings shared event).1.applyAll settings shared events := by
        change (conn.apply settings shared event).1.applyAll settings (conn.apply settings shared event).2 events = _
        rw [hsame]
      obtain ⟨hrest, hends, hstays⟩ := ih shared hnext
      have hmem : (.step ∈ event :: events) ↔ .step ∈ events := List.mem_cons.trans (or_iff_right fun h => hevent h.symm)
      rw [hrun, hmem]
      exact ⟨(rests_apply settings shared hevent conn).trans hrest, hends, hstays⟩

end

/-- What a run comes to whose output breaks off in the next step of a state. A line that is rejected closes the connection, and the books stay as they are. The response of a call closes it after the call has been entered in the books with its own outcome. A call whose item is not sent has become unavailable, which is what the next step enters before it closes. -/
inductive Breaks (settings : Settings) (state : Connection × Shared) (after : List ConnectionEvent) (last : Connection × Shared) : Prop where
  | rejection (hphase : state.1.phase = .idle) (hclosed : last.1.phase = .closed (some Wire.writeFailure))
      (hreads : (state.1.step settings state.2).1.ReadsNothing after last.1) (hshared : last.2 = state.2)
  | response {call : OpenCall} {outcome : Except Status Reply} (hphase : state.1.phase = .serving call)
      (houtcome : call.call.outcome? = some outcome) (hclosed : last.1.phase = .closed (some Wire.writeFailure))
      (hreads : state.1.ReadsNothing after last.1) (hshared : last.2 = state.2.post (.finished (call.event outcome)))
      (henters : state.2.Enters (call.event outcome) last.2)
  | item {call : OpenCall} {response : WorkResponse} {event : CallEvent} (hphase : state.1.phase = .serving call)
      (hstage : call.call.stage = .sending response) (hstep : .step ∈ after) (hclosed : last.1.phase = .closed (some Wire.writeFailure))
      (hreads : state.1.ReadsNothing after last.1) (hevent : event = call.event (.error writeFault.toStatus)) (hcode : event.code = .unavailable)
      (hshared : last.2 = state.2.post (.finished event)) (henters : state.2.Enters event last.2)
  | unfinished {call : OpenCall} {response : WorkResponse} (hphase : state.1.phase = .serving call)
      (hstage : call.call.stage = .sending response) (hstep : .step ∉ after) (hended : last.1.HasEnded call (.error writeFault.toStatus))
      (hreads : state.1.ReadsNothing after last.1) (hshared : last.2 = state.2)

theorem Fails.breaks {settings : Settings} {conn : Connection} {shared : Shared} {total : Nat} {broken : Connection × Shared}
    (h : Fails settings conn shared total broken) {missing later : List UInt8} {after : List ConnectionEvent} (hafter : BringsAll missing after later) :
    Breaks settings (conn, shared) after (broken.1.applyAll settings broken.2 after) ∧
      (broken.1.applyAll settings broken.2 after).1.wire.outbox = (conn.step settings shared).1.wire.outbox.take total := by
  cases h with
  | rejection hphase =>
    obtain ⟨hrests, hclosed, hshared⟩ := applyAll_of_closed settings shared (phase_breakOff _ _) after
    exact ⟨.rejection hphase hclosed ⟨hrests.inbox, hrests.idsUsed, hrests.callsOpened⟩ hshared, hrests.outbox⟩
  | @response call outcome hphase houtcome =>
    obtain ⟨hrests, hclosed, hshared⟩ := applyAll_of_closed settings (shared.post (.finished (call.event outcome))) (phase_breakOff _ _) after
    exact ⟨.response hphase houtcome hclosed ⟨hrests.inbox, hrests.idsUsed, hrests.callsOpened⟩ hshared (Shared.enters_of_eq_post hshared), hrests.outbox⟩
  | @item call response hphase hstage =>
    have hended : ({ conn with
        wire := conn.wire.failed ((conn.step settings shared).1.wire.outbox.take total)
        phase := .serving { call with call := .finished call.call.shape (.error writeFault.toStatus) } } : Connection).HasEnded call
          (.error writeFault.toStatus) := ⟨rfl, _, rfl, rfl, rfl⟩
    obtain ⟨hrests, hends, hstays⟩ := HasEnded.applyAll settings hafter shared hended
    refine ⟨?_, hrests.outbox⟩
    by_cases hstep : .step ∈ after
    · obtain ⟨hclosed, hshared⟩ := hends hstep
      exact .item hphase hstage hstep hclosed ⟨hrests.inbox, hrests.idsUsed, hrests.callsOpened⟩ rfl rfl hshared (Shared.enters_of_eq_post hshared)
    · obtain ⟨hlast, hshared⟩ := hstays hstep
      exact .unfinished hphase hstage hstep hlast ⟨hrests.inbox, hrests.idsUsed, hrests.callsOpened⟩ hshared

/-! ## Whole runs -/

theorem BringsAll.of_append {missing last : List UInt8} {before more : List ConnectionEvent} (h : BringsAll missing (before ++ more) last) :
    ∃ later, BringsAll missing before later ∧ BringsAll later more last := by
  induction before generalizing missing with
  | nil => exact ⟨missing, .nil missing, h⟩
  | cons event before ih =>
    cases h with
    | cons hevent hall =>
      obtain ⟨later, hbefore, hmore⟩ := ih hall
      exact ⟨later, .cons hevent hbefore, hmore⟩

/-- A run over a transport that fails before the end of its output breaks off in one of its steps. -/
theorem exists_breaks {settings : Settings} {conn : Connection} {total : Nat} {missing last : List UInt8} {events : List ConnectionEvent}
    (shared : Shared) (hroom : conn.wire.room = none) (hbefore : conn.wire.outbox.length ≤ total) (hall : BringsAll missing events last)
    (hpast : total < (conn.applyAll settings shared events).1.wire.outbox.length) :
    ∃ before after later, events = before ++ .step :: after ∧ BringsAll missing before later ∧
      let state := conn.applyAll settings shared before
      let next := (state.1.step settings state.2).1
      let failing := (conn.failingAt total).applyAll settings shared events
      (conn.failingAt total).applyAll settings shared before = (state.1.failingAt total, state.2) ∧
        state.1.wire.outbox.length ≤ total ∧ total < next.wire.outbox.length ∧
        failing.1.wire.outbox = next.wire.outbox.take total ∧ Breaks settings state after failing := by
  obtain ⟨before, after, rfl, hfits, hstep⟩ := exists_step_past settings shared hbefore hpast
  obtain ⟨later, hbrings, hmore⟩ := hall.of_append
  have hafter : BringsAll later after last := by
    cases hmore with
    | cons hevent hall =>
      cases hevent
      exact hall
  have hrun := (applyAll_failingAt settings shared hroom hfits).1
  have hroom' := (prolongs_applyAll settings shared hroom before).room
  refine ⟨before, after, later, rfl, hbrings, hrun, hfits, hstep, ?_⟩
  rw [applyAll_append, hrun]
  obtain ⟨hbreaks, houtbox⟩ := ((step_failingAt settings hroom' hfits _).past hstep).breaks hafter
  exact ⟨houtbox, hbreaks⟩

/-- A run that nothing cuts short keeps the end that the connection comes to. -/
theorem Accounted.endsAt_applyAll {ids : Nat → String} {text : List Char} {missing later : List UInt8} {settings : Settings}
    {last : Connection × Shared} {events : List ConnectionEvent} (hall : BringsAll missing events later) :
    ∀ {conn : Connection} (shared : Shared), Accounted ids conn missing text → IsUndisturbed settings conn shared events →
      (EndsAt settings ((conn.applyAll settings shared events).1.toEnd later, (conn.applyAll settings shared events).2) last ↔
        EndsAt settings (conn.toEnd missing, shared) last) := by
  induction hall with
  | nil => exact fun _ _ _ => Iff.rfl
  | cons hbrings _ ih =>
    intro conn shared haccounted hundisturbed
    have ⟨_, _, _, _, haccount⟩ := haccounted
    rw [← endsAt_apply haccount.expects.complete hbrings hundisturbed.1 shared]
    exact ih _ (haccounted.apply settings shared hbrings).1 hundisturbed.2

/-- What a run has written is the beginning of what any complete run on the same text writes. -/
theorem prefix_of_complete {ids : Nat → String} {orders : Nat → MapOrder} {text : List Char} {missing : List UInt8} {settings : Settings} (shared : Shared)
    {events others : List ConnectionEvent} (hevents : BringsAll (Utf8.encode text) events missing) (hquiet : IsUndisturbed settings { ids, orders } shared events)
    (hothers : BringsAll (Utf8.encode text) others []) (hquiet' : IsUndisturbed settings { ids, orders } shared others)
    (hclosed : (applyAll settings { ids, orders } shared others).1.isClosed = true) :
    (applyAll settings { ids, orders } shared events).1.wire.outbox <+: (applyAll settings { ids, orders } shared others).1.wire.outbox := by
  have hstart := accounted_start ids orders text
  have hend := (hstart.endsAt_applyAll hothers shared hquiet').mp (endsAt_of_closed hclosed _)
  obtain ⟨-, steps, hlast⟩ := (hstart.endsAt_applyAll hevents shared hquiet).mpr hend
  have hroom := (prolongs_applyAll settings shared (show ({ ids, orders } : Connection).wire.room = none from rfl) events).room
  have hgrows := prolongs_proceed settings (applyAll settings { ids, orders } shared events).2
    (show ((applyAll settings { ids, orders } shared events).1.toEnd missing).wire.room = none from hroom) steps
  rw [hlast] at hgrows
  exact hgrows.outbox

/-- The open call has counted the frames that have left. -/
theorem exists_transcribes (settings : Settings) (shared : Shared) (ids : Nat → String) (orders : Nat → MapOrder) (text : List Char) {events : List ConnectionEvent}
    {missing : List UInt8} (hevents : BringsAll (Utf8.encode text) events missing) :
    let state := applyAll settings { ids, orders } shared events
    ∃ passages taken frames unread, Transcribes ids state.1 (textLines text) passages taken frames unread ∧
      ∀ call, state.1.phase = .serving call → call.stream.bytesOut = Utf8.size (frames.flatMap Frame.line) := by
  obtain ⟨entries, taken, frames, rest, hbalances, -⟩ := exists_balances settings shared ids orders text hevents
  refine ⟨_, taken, frames, _, hbalances.transcribes, fun call hphase => ?_⟩
  obtain ⟨_, _, _, -, -, hmeter⟩ := hbalances.ledger.calling _ (meter?_of_serving hphase)
  exact congrArg Meter.bytesOut hmeter

/-- Whatever byte of the output the transport fails at, the books stay straight.

What leaves is the output of the sound run up to this byte, and so a beginning of the output of any complete run with the same ids and orders that nothing cuts short. If the sound run writes no more, the run is the same. Otherwise there is one step that writes the byte: the run is the same up to it, with the open call having counted the frames that have left whole, and breaks off there. -/
theorem failing_writes_keep_books (settings : Settings) (shared : Shared) (ids : Nat → String) (orders : Nat → MapOrder) (text : List Char) (total : Nat)
    {events : List ConnectionEvent} {missing : List UInt8} (hevents : BringsAll (Utf8.encode text) events missing) :
    let start : Connection := { wire := { room := some total }, ids, orders }
    let sound := applyAll settings { ids, orders } shared events
    let failing := applyAll settings start shared events
    failing.1.wire.outbox = sound.1.wire.outbox.take total ∧
    (IsUndisturbed settings start shared events → ∀ others, BringsAll (Utf8.encode text) others [] → IsUndisturbed settings { ids, orders } shared others →
      let complete := (applyAll settings { ids, orders } shared others).1
      complete.isClosed = true → failing.1.wire.outbox <+: complete.wire.outbox) ∧
    (sound.1.wire.outbox.length ≤ total → failing = (sound.1.failingAt total, sound.2)) ∧
    (total < sound.1.wire.outbox.length → ∃ before after, events = before ++ .step :: after ∧
      let state := applyAll settings { ids, orders } shared before
      applyAll settings start shared before = (state.1.failingAt total, state.2) ∧
      (∃ passages taken frames unread, Transcribes ids state.1 (textLines text) passages taken frames unread ∧
        ∀ call, state.1.phase = .serving call → call.stream.bytesOut = Utf8.size (frames.flatMap Frame.line)) ∧
      state.1.wire.outbox.length ≤ total ∧ total < (state.1.step settings state.2).1.wire.outbox.length ∧
      Breaks settings state after failing) := by
  intro start sound failing
  have hroom : ({ ids, orders } : Connection).wire.room = none := rfl
  rcases Nat.lt_or_ge total sound.1.wire.outbox.length with hpast | hfits
  · obtain ⟨before, after, later, rfl, hbrings, hrun, hbefore, hstep, houtbox, hbreaks⟩ :=
      exists_breaks shared hroom (Nat.zero_le total) hevents hpast
    have hnext : applyAll settings { ids, orders } shared (before ++ [.step]) =
        step settings (applyAll settings { ids, orders } shared before).1 (applyAll settings { ids, orders } shared before).2 :=
      applyAll_append settings shared { ids, orders } before [.step]
    have hgrows := (prolongs_applyAll_append settings shared hroom (before ++ [.step]) after).outbox
    rw [← hnext] at houtbox hstep
    refine ⟨?taken, fun hundisturbed others hothers hquiet' hclosed => ?first, fun hfits => absurd hpast (Nat.not_lt.mpr hfits),
      fun _ => ⟨before, after, rfl, hrun, exists_transcribes settings shared ids orders text hbrings, hbefore, hnext ▸ hstep, hbreaks⟩⟩
    case taken =>
      obtain ⟨more, hmore⟩ := hgrows
      rw [List.append_assoc] at hmore
      rw [show sound.1.wire.outbox = _ from hmore.symm, List.take_append_of_le_length hstep.le]
      exact houtbox
    case first =>
      -- The step that breaks off cuts no call short, so all that it writes over a sound transport belongs to the complete output.
      have hquiet : IsUndisturbed settings { ids, orders } shared before :=
        (applyAll_failingAt settings shared hroom hbefore).2.mp ((isUndisturbed_append settings shared).mp hundisturbed).1
      have hquiet'' : IsUndisturbed settings { ids, orders } shared (before ++ [.step]) :=
        (isUndisturbed_append settings shared).mpr ⟨hquiet, ⟨by simp, by simp⟩, trivial⟩
      have hfirst := prefix_of_complete shared (hbrings.append (.cons (.step later) (.nil later))) hquiet'' hothers hquiet' hclosed
      rw [show failing.1.wire.outbox = _ from houtbox]
      exact (List.take_prefix _ _).trans hfirst
  · obtain ⟨hrun, hquiet⟩ := applyAll_failingAt settings shared hroom hfits
    have houtbox : failing.1.wire.outbox = sound.1.wire.outbox := congrArg (fun state => state.1.wire.outbox) hrun
    refine ⟨houtbox.trans (List.take_of_length_le hfits).symm, fun hundisturbed others hothers hquiet' hclosed => ?_, fun _ => hrun,
      fun hpast => absurd hpast (Nat.not_lt.mpr hfits)⟩
    rw [houtbox]
    exact prefix_of_complete shared hevents (hquiet.mp hundisturbed) hothers hquiet' hclosed

/-- A call with two ids is to send three items, and the second does not leave whole. The response, whose ids are in the reverse order, never leaves. -/
theorem failing_writes_keep_books_second_item :
    let text := "\x7b\"jsonrpc\":\"2.0\",\"id\":1,\"method\":\"burner.DoWorkServerStreaming\",\"params\":\x7b\"repeat\":3\x7d,\"metadata\":\x7b\"x-trace-id\":\"t\"\x7d\x7d\nlater\n".toList
    let settings : Settings := { limits := .unbounded }
    let labels : CallLabels := ⟨"LOAD_MODE_UNSPECIFIED", "burner.DoWorkServerStreaming"⟩
    let events := ConnectionEvent.deliver (Utf8.encode text) :: List.replicate 12 .step
    let start : Connection := { ids := toString, orders := fun _ => .reversed }
    let sound := applyAll settings start { draws := .cycle [] } events
    let failing := applyAll settings { start with wire := { room := some 150 } } { draws := .cycle [] } events
    BringsAll (Utf8.encode text) events [] ∧ failing.1.wire.outbox = sound.1.wire.outbox.take 150 ∧
      (∃ before after, events = before ++ .step :: after ∧ Breaks settings (applyAll settings start { draws := .cycle [] } before) after failing) ∧
      failing.2.log.map (fun entry => (entry.traceId, entry.code, entry.bytesOut)) = [("t", .unavailable, 112)] ∧
      failing.2.metrics.requests = [(⟨labels, .unavailable⟩, 1)] ∧ failing.2.metrics.latencies = [(⟨labels, .unavailable⟩, 1)] ∧
      failing.2.metrics.inFlight = [(labels, 0)] ∧ failing.2.metrics.runs.map Prod.snd = [2] ∧
      failing.1.wire.inbox = Utf8.encode "later\n".toList := by
  intro text settings labels events start sound failing
  have hevents : BringsAll (Utf8.encode text) events [] := .deliver (bringsAll_steps [] 12)
  obtain ⟨htake, -, -, hbreaks⟩ := failing_writes_keep_books settings { draws := .cycle [] } toString (fun _ => .reversed) text 150 hevents
  obtain ⟨before, after, hsplit, -, -, -, -, hbreaks⟩ := hbreaks (by decide +kernel)
  have hcalls : (failing.2.log.map (fun entry => (entry.traceId, entry.code, entry.bytesOut)), failing.2.metrics.requests,
      failing.2.metrics.latencies, failing.2.metrics.inFlight) =
      ([("t", .unavailable, 112)], [(⟨labels, .unavailable⟩, 1)], [(⟨labels, .unavailable⟩, 1)], [(labels, 0)]) := by
    decide +kernel
  have hrest : (failing.2.metrics.runs.map Prod.snd, failing.1.wire.inbox) = ([2], Utf8.encode "later\n".toList) := by decide +kernel
  obtain ⟨hruns, hinbox⟩ := Prod.mk.inj hrest
  obtain ⟨hlog, hmetrics⟩ := Prod.mk.inj hcalls
  obtain ⟨hrequests, hmetrics⟩ := Prod.mk.inj hmetrics
  obtain ⟨hlatencies, hinFlight⟩ := Prod.mk.inj hmetrics
  refine ⟨hevents, ?_, ⟨before, after, hsplit, ?_⟩, hlog, hrequests, hlatencies, hinFlight, hruns, hinbox⟩
  · with_reducible exact htake
  · with_reducible exact hbreaks

end Connection

end LoadGenerator
