import LoadGenerator.Proofs.Connection.Confluence
import LoadGenerator.Proofs.Connection.Ledger
import LoadGenerator.Proofs.Connection.Steps
import LoadGenerator.Proofs.Service.Settled

/-!
# Transports that fail

A transport may take some bytes and then no more. A step of a connection whose write it takes whole is that over a sound transport, for nothing that the connection reads or runs depends on it. A step whose write it does not take whole closes the connection if the line was the rejection of another or the response of a call, which is counted and logged all the same; if it was an item, it ends the call as unavailable.
-/

namespace LoadGenerator

/-! ## Wires -/

namespace Wire

/-- The wire over a transport that takes so many bytes in all. -/
def failingAt (total : Nat) (wire : Wire) : Wire := { wire with room := some (total - wire.outbox.length) }

/-- The wire after the first write that was not taken whole, when this has left in all. -/
def failed (wire : Wire) (output : List UInt8) : Wire := { wire with outbox := output, room := some 0 }

section

variable (total : Nat) (wire : Wire)

theorem readLine_failingAt : (wire.failingAt total).readLine = (wire.readLine.1, wire.readLine.2.failingAt total) := by
  obtain ⟨inbox, ended, outbox, room⟩ := wire
  simp only [readLine, failingAt]
  cases cutLine inbox with
  | some cut => rfl
  | none =>
    cases ended with
    | false => rfl
    | true => cases inbox <;> rfl

/-- Reading a line takes it from the inbox and changes nothing else. -/
theorem readLine_frame : ∃ inbox, wire.readLine.2 = { wire with inbox } := by
  obtain ⟨inbox, ended, outbox, room⟩ := wire
  simp only [readLine]
  cases cutLine inbox with
  | some cut => exact ⟨cut.2, rfl⟩
  | none =>
    cases ended with
    | false => exact ⟨inbox, rfl⟩
    | true => cases inbox <;> exact ⟨[], rfl⟩

theorem nextLineWithin_failingAt (fuel : Nat) :
    (wire.failingAt total).nextLineWithin fuel =
      ((wire.nextLineWithin fuel).1, (wire.nextLineWithin fuel).2.1, (wire.nextLineWithin fuel).2.2.failingAt total) := by
  induction fuel generalizing wire with
  | zero => rfl
  | succ fuel ih =>
    rw [nextLineWithin, nextLineWithin, readLine_failingAt]
    rcases wire.readLine with ⟨read, next⟩
    cases read with
    | line text =>
      dsimp only
      split_ifs
      · rw [ih]
      · rfl
    | _ => rfl

theorem nextLineWithin_frame (fuel : Nat) : ∃ inbox, (wire.nextLineWithin fuel).2.2 = { wire with inbox } := by
  induction fuel generalizing wire with
  | zero => exact ⟨wire.inbox, rfl⟩
  | succ fuel ih =>
    obtain ⟨inbox, hframe⟩ := wire.readLine_frame
    rw [nextLineWithin]
    rcases hread : wire.readLine with ⟨read, next⟩
    rw [hread] at hframe
    obtain rfl : next = { wire with inbox } := hframe
    cases read with
    | line text =>
      dsimp only
      split_ifs
      · obtain ⟨rest, hrest⟩ := ih { wire with inbox }
        exact ⟨rest, hrest⟩
      · exact ⟨inbox, rfl⟩
    | _ => exact ⟨inbox, rfl⟩

theorem nextLine_failingAt :
    (wire.failingAt total).nextLine = (wire.nextLine.1, wire.nextLine.2.1, wire.nextLine.2.2.failingAt total) :=
  wire.nextLineWithin_failingAt total _

theorem nextLine_frame : ∃ inbox, wire.nextLine.2.2 = { wire with inbox } := wire.nextLineWithin_frame _

end

section

variable {total : Nat} {wire : Wire} {bytes : List UInt8}

theorem write_of_fits (hfits : wire.outbox.length + bytes.length ≤ total) :
    (wire.failingAt total).write bytes = (true, ({ wire with outbox := wire.outbox ++ bytes } : Wire).failingAt total) := by
  have htake : bytes.take (total - wire.outbox.length) = bytes := List.take_of_length_le (by omega)
  have hwhole : decide (bytes.length ≤ total - wire.outbox.length) = true := decide_eq_true (by omega)
  simp only [write, failingAt, htake, hwhole, List.length_append, Nat.sub_sub]

theorem write_of_fails (hbefore : wire.outbox.length ≤ total) (hfails : total < wire.outbox.length + bytes.length) :
    (wire.failingAt total).write bytes = (false, wire.failed ((wire.outbox ++ bytes).take total)) := by
  have htake : wire.outbox ++ bytes.take (total - wire.outbox.length) = (wire.outbox ++ bytes).take total := by
    rw [List.take_append, List.take_of_length_le hbefore]
  have hpart : decide (bytes.length ≤ total - wire.outbox.length) = false := decide_eq_false (by omega)
  have hfull : total - wire.outbox.length - bytes.length = 0 := by omega
  simp only [write, failingAt, failed, htake, hpart, hfull]

end

end Wire

namespace Connection

open Message Service

/-! ## Calls -/

section

variable {total : Nat} {wire : Wire} {line : List Char}

theorem writeLine_of_fits (hfits : wire.outbox.length + (Utf8.encode line).length ≤ total) (hroom : wire.room = none) (stream : CallStream) :
    writeLine line (wire.failingAt total, stream) =
      (true, (writeLine line (wire, stream)).2.1.failingAt total, (writeLine line (wire, stream)).2.2) := by
  rw [writeLine_of_room hroom, writeLine, Wire.write_of_fits hfits]

/-- A line that is not written whole does not count. -/
theorem writeLine_of_fails (hbefore : wire.outbox.length ≤ total) (hfails : total < wire.outbox.length + (Utf8.encode line).length)
    (hroom : wire.room = none) (stream : CallStream) :
    writeLine line (wire.failingAt total, stream) = (false, wire.failed ((writeLine line (wire, stream)).2.1.outbox.take total), stream) := by
  rw [writeLine_of_room hroom, writeLine, Wire.write_of_fails hbefore hfails]

theorem receive_failingAt (total : Nat) (wire : Wire) (stream : CallStream) :
    receive (wire.failingAt total, stream) =
      ((receive (wire, stream)).1, (receive (wire, stream)).2.1.failingAt total, (receive (wire, stream)).2.2) := by
  cases hended : stream.ended with
  | true => simp only [receive, hended, if_true]
  | false =>
    simp only [receive, hended, Bool.false_eq_true, if_false, Wire.nextLine_failingAt]
    rcases wire.nextLine with ⟨read, size, next⟩
    cases read with
    | line text =>
      dsimp only
      cases requestOf stream.id text with
      | error fault => rfl
      | ok received => cases received <;> rfl
    | _ => rfl

/-- Receiving changes the wire only in what has been read of it. -/
theorem receive_frame (wire : Wire) (stream : CallStream) : ∃ inbox, (receive (wire, stream)).2.1 = { wire with inbox } := by
  cases hended : stream.ended with
  | true => exact ⟨wire.inbox, by simp only [receive, hended, if_true]⟩
  | false =>
    obtain ⟨inbox, hframe⟩ := wire.nextLine_frame
    simp only [receive, hended, Bool.false_eq_true, if_false]
    rcases hread : wire.nextLine with ⟨read, size, next⟩
    rw [hread] at hframe
    refine ⟨inbox, ?_⟩
    cases read with
    | line text =>
      dsimp only
      cases requestOf stream.id text with
      | error fault => exact hframe
      | ok received => cases received <;> exact hframe
    | _ => exact hframe

/-- A step of a call that has no response to send is the same over a transport that fails, and at most reads. -/
theorem call_step_failingAt (limits : Load.Limits) {call : Call} (hquiet : ∀ response, call.stage ≠ .sending response) (shared : Shared)
    (total : Nat) (wire : Wire) (stream : CallStream) :
    let (act, next, shared', wire', stream') := call.step peer limits shared (wire, stream)
    call.step peer limits shared (wire.failingAt total, stream) = (act, next, shared', wire'.failingAt total, stream') ∧
      ∃ inbox, wire' = { wire with inbox } := by
  obtain ⟨shape, stage⟩ := call
  cases stage with
  | sending response => exact absurd rfl (hquiet response)
  | ended outcome => exact ⟨rfl, wire.inbox, rfl⟩
  | running request => exact ⟨rfl, wire.inbox, rfl⟩
  | head =>
    have hreads (hshape : ∀ item left, shape ≠ .repeated item left) :
        let (act, next, shared', wire', stream') := Call.step peer limits ⟨shape, .head⟩ shared (wire, stream)
        Call.step peer limits ⟨shape, .head⟩ shared (wire.failingAt total, stream) = (act, next, shared', wire'.failingAt total, stream') ∧
          ∃ inbox, wire' = { wire with inbox } := by
      have hframe := receive_frame wire stream
      cases hcancelled : stream.cancelled with
      | true =>
        have hnever : ∀ item, shape ≠ .repeated item 0 := fun item => hshape item 0
        rw [step_cancelled limits shared hnever hcancelled, step_cancelled limits shared hnever hcancelled]
        exact ⟨rfl, wire.inbox, rfl⟩
      | false =>
        rw [call_step_reads limits hshape shared _ hcancelled, call_step_reads limits hshape shared _ hcancelled, receive_failingAt]
        rcases hreceive : receive (wire, stream) with ⟨_ | _ | _ | request, s⟩
        all_goals
          rw [hreceive] at hframe
          exact ⟨rfl, hframe⟩
    cases shape with
    | repeated item left =>
      cases left with
      | zero => exact ⟨rfl, wire.inbox, rfl⟩
      | succ left =>
        simp only [Call.step, peer]
        cases stream.cancelled <;> exact ⟨rfl, wire.inbox, rfl⟩
    | unary => exact hreads (by simp)
    | tally summary => exact hreads (by simp)
    | exchange => exact hreads (by simp)

/-- The write of a response is the same where it fits, and ends the call where it does not. -/
theorem call_step_sending (limits : Load.Limits) {call : Call} {response : WorkResponse} (hstage : call.stage = .sending response)
    (shared : Shared) (hroom : wire.room = none) (hbefore : wire.outbox.length ≤ total) (stream : CallStream) :
    let (act, next, shared', wire', stream') := call.step peer limits shared (wire, stream)
    shared' = shared ∧
      (wire'.outbox.length ≤ total → call.step peer limits shared (wire.failingAt total, stream) = (act, next, shared', wire'.failingAt total, stream')) ∧
      (total < wire'.outbox.length → call.step peer limits shared (wire.failingAt total, stream) =
        (some (.sendFailed writeFault.toStatus), .finished call.shape (.error writeFault.toStatus), shared, wire.failed (wire'.outbox.take total), stream)) := by
  obtain ⟨shape, stage⟩ := call
  obtain rfl : stage = .sending response := hstage
  simp only [Call.step, peer, send_of_room hroom, List.length_append]
  refine ⟨trivial, fun hfits => ?_, fun hfails => ?_⟩
  · rw [send, writeLine_of_fits hfits hroom, writeLine_of_room hroom]
  · rw [send, writeLine_of_fails hbefore hfails hroom, writeLine_of_room hroom]

end

/-! ## Steps -/

/-- The connection over a transport that takes so many bytes in all. -/
def failingAt (total : Nat) (conn : Connection) : Connection := { conn with wire := conn.wire.failingAt total }

/-- The connection closed by a write that was not taken whole, when this has left in all. -/
def breakOff (conn : Connection) (output : List UInt8) : Connection :=
  { conn with wire := conn.wire.failed output, phase := .closed (some Wire.writeFailure) }

theorem phase_breakOff (conn : Connection) (output : List UInt8) : (conn.breakOff output).phase = .closed (some Wire.writeFailure) := rfl

/-- What a step leaves whose write is not taken whole. -/
inductive Fails (settings : Settings) (conn : Connection) (shared : Shared) (total : Nat) : Connection × Shared → Prop where
  | rejection (hphase : conn.phase = .idle) :
      Fails settings conn shared total
        ((conn.step settings shared).1.breakOff ((conn.step settings shared).1.wire.outbox.take total), shared)
  | response {call : OpenCall} {outcome : Except Status Reply} (hphase : conn.phase = .serving call) (houtcome : call.call.outcome? = some outcome) :
      Fails settings conn shared total
        (conn.breakOff ((conn.step settings shared).1.wire.outbox.take total), shared.post (.finished (call.event outcome)))
  | item {call : OpenCall} {response : WorkResponse} (hphase : conn.phase = .serving call) (hstage : call.call.stage = .sending response) :
      Fails settings conn shared total
        ({ conn with
            wire := conn.wire.failed ((conn.step settings shared).1.wire.outbox.take total)
            phase := .serving { call with call := .finished call.call.shape (.error writeFault.toStatus) } }, shared)

/-- Over a transport that takes so many bytes in all, it comes to the same if they are enough, and to what is broken if not. -/
structure SameUpTo (total : Nat) (sound failing : Connection × Shared) (broken : Prop) : Prop where
  fits : sound.1.wire.outbox.length ≤ total → failing = (sound.1.failingAt total, sound.2)
  past : total < sound.1.wire.outbox.length → broken

theorem SameUpTo.of_le {total : Nat} {sound failing : Connection × Shared} {broken : Prop} (henough : sound.1.wire.outbox.length ≤ total)
    (hsame : failing = (sound.1.failingAt total, sound.2)) : SameUpTo total sound failing broken where
  fits _ := hsame
  past hpast := absurd hpast (Nat.not_lt.mpr henough)

section

variable (settings : Settings) {conn : Connection} {total : Nat}

theorem reject_failingAt (hroom : conn.wire.room = none) (hbefore : conn.wire.outbox.length ≤ total) (response : Response) (shared : Shared) :
    let next := conn.reject response
    let failing := (conn.failingAt total).reject response
    SameUpTo total (next, shared) (failing, shared) ((failing, shared) = (next.breakOff (next.wire.outbox.take total), shared)) := by
  rw [reject_of_room hroom]
  constructor
  · intro hfits
    rw [List.length_append] at hfits
    simp only [reject, failingAt, Wire.write_of_fits hfits, afterWrite, if_true]
  · intro hpast
    rw [List.length_append] at hpast
    simp only [reject, failingAt, Wire.write_of_fails hbefore hpast, afterWrite, Bool.false_eq_true, if_false]
    rfl

theorem takeLine_failingAt (hroom : conn.wire.room = none) (hbefore : conn.wire.outbox.length ≤ total) (shared : Shared) (text : List Char) :
    let next := takeLine settings conn shared text
    let failing := takeLine settings (conn.failingAt total) shared text
    SameUpTo total next failing (failing = (next.1.breakOff (next.1.wire.outbox.take total), shared)) := by
  unfold takeLine
  split_ifs with hblank
  · exact .of_le hbefore rfl
  · cases Request.codec.parse (String.ofList text) with
    | error e => exact reject_failingAt hroom hbefore (unreadableResponse e) shared
    | ok request =>
      dsimp only
      split_ifs
      · exact reject_failingAt hroom hbefore (versionResponse request) shared
      · exact .of_le hbefore rfl

theorem stepIdle_failingAt (hroom : conn.wire.room = none) (hbefore : conn.wire.outbox.length ≤ total) (shared : Shared) :
    let next := stepIdle settings conn shared
    let failing := stepIdle settings (conn.failingAt total) shared
    SameUpTo total next failing (failing = (next.1.breakOff (next.1.wire.outbox.take total), shared)) := by
  obtain ⟨inbox, hframe⟩ := conn.wire.readLine_frame
  obtain ⟨wire, shutdown, phase, ids, used, orders, opened⟩ := conn
  cases shutdown with
  | true => exact .of_le hbefore rfl
  | false =>
    simp only [stepIdle, failingAt, Bool.false_eq_true, if_false, Wire.readLine_failingAt]
    rcases hread : wire.readLine with ⟨read, next⟩
    rw [hread] at hframe
    obtain rfl : next = { wire with inbox } := hframe
    cases read with
    | line text =>
      have hread : (⟨{ wire with inbox }, false, phase, ids, used, orders, opened⟩ : Connection).wire.room = none := hroom
      exact takeLine_failingAt settings hread hbefore shared text
    | _ => exact .of_le hbefore rfl

theorem closeCall_failingAt (hroom : conn.wire.room = none) (hbefore : conn.wire.outbox.length ≤ total) (shared : Shared)
    (call : OpenCall) (outcome : Except Status Reply) :
    let next := conn.closeCall shared call outcome
    let failing := (conn.failingAt total).closeCall shared call outcome
    SameUpTo total next failing
      (failing = (conn.breakOff (next.1.wire.outbox.take total), shared.post (.finished (call.event outcome)))) := by
  simp only [closeCall, failingAt, writeLine_of_room hroom]
  constructor
  · intro hfits
    rw [List.length_append] at hfits
    rw [writeLine_of_fits hfits hroom, writeLine_of_room hroom]
    rfl
  · intro hpast
    rw [List.length_append] at hpast
    rw [writeLine_of_fails hbefore hpast hroom, writeLine_of_room hroom]
    rfl

theorem stepCall_failingAt (hroom : conn.wire.room = none) (hbefore : conn.wire.outbox.length ≤ total) {call : OpenCall}
    (hphase : conn.phase = .serving call) (shared : Shared) :
    let failing := (conn.failingAt total).step settings shared
    SameUpTo total (conn.step settings shared) failing (Fails settings conn shared total failing) := by
  have hphase' : (conn.failingAt total).phase = .serving call := hphase
  cases houtcome : call.call.outcome? with
  | some outcome =>
    have hcloses {other : Connection} (hother : other.phase = .serving call) :
        other.step settings shared = other.closeCall shared call outcome := by
      rw [step_of_serving settings shared hother, stepCall, houtcome]
    have hresponse : Fails settings conn shared total _ := .response hphase houtcome
    have hclose := closeCall_failingAt hroom hbefore shared call outcome
    rw [hcloses hphase] at hresponse ⊢
    rw [hcloses hphase']
    exact ⟨hclose.fits, fun hpast => (hclose.past hpast).symm ▸ hresponse⟩
  | none =>
    have hgoesOn {other : Connection} (hother : other.phase = .serving call) :
        other.step settings shared =
          let (_, next, shared, wire, stream) := call.call.step peer settings.limits shared (other.wire, call.stream)
          ({ other with wire, phase := .serving { call with call := next, stream } }, shared) := by
      rw [step_of_serving settings shared hother, stepCall, houtcome]
    cases hstage : call.call.stage with
    | sending response =>
      have hitem : Fails settings conn shared total _ := .item hphase hstage
      have hwrites := call_step_sending settings.limits hstage shared hroom hbefore call.stream
      rw [hgoesOn hphase] at hitem ⊢
      rw [hgoesOn hphase']
      generalize call.call.step peer settings.limits shared (conn.wire, call.stream) = result at hwrites hitem ⊢
      obtain ⟨act, next, shared', wire', stream'⟩ := result
      obtain ⟨rfl, hfits, hfails⟩ := hwrites
      constructor
      · intro hfit
        rw [failingAt, hfits hfit]
        rfl
      · intro hpast
        rw [failingAt, hfails hpast]
        exact hitem
    | _ =>
      have hquiet := call_step_failingAt settings.limits (show ∀ response, call.call.stage ≠ .sending response by simp [hstage]) shared total
        conn.wire call.stream
      rw [hgoesOn hphase, hgoesOn hphase']
      generalize call.call.step peer settings.limits shared (conn.wire, call.stream) = result at hquiet ⊢
      obtain ⟨act, next, shared', wire', stream'⟩ := result
      obtain ⟨hsame, inbox, rfl⟩ := hquiet
      refine .of_le hbefore ?_
      rw [failingAt, hsame]
      rfl

/-- A step over a transport that fails is that over a sound one, unless it writes what the transport does not take. -/
theorem step_failingAt (hroom : conn.wire.room = none) (hbefore : conn.wire.outbox.length ≤ total) (shared : Shared) :
    let failing := (conn.failingAt total).step settings shared
    SameUpTo total (conn.step settings shared) failing (Fails settings conn shared total failing) := by
  cases hphase : conn.phase with
  | closed failure =>
    have hstep : conn.step settings shared = (conn, shared) := by simp only [step, hphase]
    have hstep' : (conn.failingAt total).step settings shared = (conn.failingAt total, shared) := by simp only [step, failingAt, hphase]
    rw [hstep, hstep']
    exact .of_le hbefore rfl
  | idle =>
    have hphase' : (conn.failingAt total).phase = .idle := hphase
    have hrejection : Fails settings conn shared total _ := .rejection hphase
    have hidle := stepIdle_failingAt settings hroom hbefore shared
    rw [step_of_idle settings shared hphase] at hrejection ⊢
    rw [step_of_idle settings shared hphase']
    exact ⟨hidle.fits, fun hpast => (hidle.past hpast).symm ▸ hrejection⟩
  | serving call => exact stepCall_failingAt settings hroom hbefore hphase shared

end

end Connection

end LoadGenerator
