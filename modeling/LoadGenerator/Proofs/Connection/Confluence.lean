import LoadGenerator.Proofs.Connection.Transcript

/-!
# Where a connection comes to

The bytes of a text may arrive in any pieces, and a call that waits for a line may have passed blank ones already, but none of this matters for where the connection comes to. Whenever the rest of the text had arrived at once and the peer had hung up, the connection would come to the same end: each event keeps it. So all runs on one text end with the same bytes written, the same counts and the same log.
-/

namespace LoadGenerator

/-! ## Wires whose text is all there -/

namespace Wire

/-- The wire with all that is missing, after which the other side has ended. -/
def toEnd (missing : List UInt8) (wire : Wire) : Wire := { wire with inbox := wire.inbox ++ missing, inputEnded := true }

theorem toEnd_of_ended {wire : Wire} (h : wire.inputEnded = true) : wire.toEnd [] = wire := by
  rw [toEnd, List.append_nil, ← h]

section

variable {wire : Wire} {missing : List UInt8}

/-- A line that is there is read in any case. -/
theorem readLine_toEnd (hcomplete : wire.inputEnded = true → missing = []) :
    (wire.inputEnded = false ∧ wire.readLine = (.waiting, wire)) ∨
      (wire.toEnd missing).readLine = (wire.readLine.1, wire.readLine.2.toEnd missing) := by
  cases hended : wire.inputEnded with
  | true =>
    obtain rfl := hcomplete hended
    have hread : wire.readLine.2.inputEnded = true := by
      unfold readLine
      cases cutLine wire.inbox with
      | some cut => exact hended
      | none =>
        dsimp only
        split_ifs <;> exact hended
    rw [toEnd_of_ended hended, toEnd_of_ended hread]
    exact .inr rfl
  | false =>
    unfold readLine
    cases hcut : cutLine wire.inbox with
    | none =>
      rw [hended]
      exact .inl ⟨rfl, rfl⟩
    | some cut =>
      rw [show cutLine (wire.toEnd missing).inbox = some (cut.1, cut.2 ++ missing) from cutLine_append hcut missing]
      exact .inr rfl

/-- What is read leaves a shorter inbox, and nothing else is changed. -/
theorem readLine_line {text : List Char} {next : Wire} (h : wire.readLine = (.line text, next)) :
    next.inbox.length < wire.inbox.length ∧ next.inputEnded = wire.inputEnded := by
  unfold readLine at h
  cases hcut : cutLine wire.inbox with
  | some cut =>
    obtain ⟨line, rest⟩ := cut
    obtain ⟨front, -, -, hinbox⟩ := cutLine_eq_some_iff.mp hcut
    rw [hcut] at h
    obtain ⟨-, rfl⟩ := Prod.mk.inj h
    refine ⟨?_, rfl⟩
    rw [hinbox, List.length_append, List.length_cons]
    dsimp only
    omega
  | none =>
    rw [hcut] at h
    dsimp only at h
    split_ifs at h with hended hempty
    · cases (Prod.mk.inj h).1
    · cases (Prod.mk.inj h).1
    · obtain ⟨-, rfl⟩ := Prod.mk.inj h
      exact ⟨List.length_pos_iff.mpr (by simpa using hempty), rfl⟩

theorem nextLineWithin_eq {fuel fuel' : Nat} (h : wire.inbox.length < fuel) (h' : wire.inbox.length < fuel') :
    wire.nextLineWithin fuel = wire.nextLineWithin fuel' := by
  induction fuel generalizing wire fuel' with
  | zero => exact absurd h (Nat.not_lt_zero _)
  | succ fuel ih =>
    cases fuel' with
    | zero => exact absurd h' (Nat.not_lt_zero _)
    | succ fuel' =>
      rw [nextLineWithin, nextLineWithin]
      rcases hread : wire.readLine with ⟨read, next⟩
      cases read with
      | line text =>
        obtain ⟨hshorter, -⟩ := readLine_line hread
        dsimp only
        rw [ih (by omega) (show next.inbox.length < fuel' by omega)]
      | _ => rfl

theorem nextLine_eq (wire : Wire) :
    wire.nextLine =
      match wire.readLine with
      | (.line text, next) =>
        if isBlankLine text then (next.nextLine.1, Utf8.size text + next.nextLine.2.1, next.nextLine.2.2) else (.line text, Utf8.size text, next)
      | (read, next) => (read, 0, next) := by
  rw [nextLine, nextLineWithin]
  rcases hread : wire.readLine with ⟨read, next⟩
  cases read with
  | line text =>
    obtain ⟨hshorter, -⟩ := readLine_line hread
    dsimp only
    rw [nextLine, nextLineWithin_eq hshorter (Nat.lt_succ_self _)]
  | _ => rfl

/-- A wire that waits has passed blank lines, and goes on behind them when the rest arrives. -/
theorem nextLine_toEnd (hcomplete : wire.inputEnded = true → missing = []) :
    (wire.inputEnded = false ∧ wire.nextLine.1 = .waiting ∧ (wire.toEnd missing).nextLine =
        let later := (wire.nextLine.2.2.toEnd missing).nextLine
        (later.1, wire.nextLine.2.1 + later.2.1, later.2.2)) ∨
      (wire.toEnd missing).nextLine = (wire.nextLine.1, wire.nextLine.2.1, wire.nextLine.2.2.toEnd missing) := by
  induction hlength : wire.inbox.length using Nat.strongRecOn generalizing wire with
  | ind length ih =>
    rcases readLine_toEnd hcomplete with ⟨hopen, hwaits⟩ | hreads
    · rw [nextLine_eq wire, hwaits]
      dsimp only
      exact .inl ⟨hopen, rfl, by rw [Nat.zero_add]⟩
    · rcases hread : wire.readLine with ⟨read, next⟩
      rw [hread] at hreads
      rw [nextLine_eq wire, nextLine_eq (wire.toEnd missing), hread, hreads]
      cases read with
      | line text =>
        obtain ⟨hshorter, hended⟩ := readLine_line hread
        dsimp only
        split_ifs with hblank
        · rcases ih _ (hlength ▸ hshorter) (fun h => hcomplete (hended ▸ h)) rfl with ⟨hopen, hwaits, hnext⟩ | hnext
          · rw [hnext]
            exact .inl ⟨hended.symm.trans hopen, hwaits, by rw [Nat.add_assoc]⟩
          · rw [hnext]
            exact .inr rfl
        · exact .inr rfl
      | _ => exact .inr rfl

theorem write_toEnd (bytes : List UInt8) :
    (wire.toEnd missing).write bytes = ((wire.write bytes).1, (wire.write bytes).2.toEnd missing) := by
  obtain ⟨inbox, ended, outbox, room⟩ := wire
  cases room <;> rfl

end

end Wire

namespace Connection

open Message Service

/-! ## Steps of a call whose text is all there -/

section

variable {wire : Wire} {missing : List UInt8}

theorem writeLine_toEnd (line : List Char) (stream : CallStream) :
    writeLine line (wire.toEnd missing, stream) =
      let result := writeLine line (wire, stream)
      (result.1, result.2.1.toEnd missing, result.2.2) := by
  simp only [writeLine, Wire.write_toEnd]
  rcases wire.write (Utf8.encode line) with ⟨_ | _, wire'⟩ <;> rfl

theorem send_toEnd (stream : CallStream) (response : WorkResponse) :
    send (wire.toEnd missing, stream) response =
      let result := send (wire, stream) response
      (result.1, result.2.1.toEnd missing, result.2.2) := by
  simp only [send, writeLine_toEnd]
  rcases writeLine (Frame.item stream.id (WorkResponse.codec.toJson response)).line (wire, stream) with ⟨_ | _, s⟩ <;> rfl

/-- Receiving nothing leaves the call where it would receive the same. -/
theorem receive_toEnd (hcomplete : wire.inputEnded = true → missing = []) (stream : CallStream) :
    let result := receive (wire, stream)
    (wire.inputEnded = false ∧ result.1 = none ∧ receive (wire.toEnd missing, stream) = receive (result.2.1.toEnd missing, result.2.2) ∧
        result.2.2.cancelled = stream.cancelled) ∨
      receive (wire.toEnd missing, stream) = (result.1, result.2.1.toEnd missing, result.2.2) := by
  cases hended : stream.ended with
  | true =>
    right
    simp only [receive, hended, if_true]
  | false =>
    rcases Wire.nextLine_toEnd hcomplete with ⟨hopen, hwaits, hnext⟩ | hnext
    · rcases hread : wire.nextLine with ⟨read, size, next⟩
      rw [hread] at hwaits hnext
      obtain rfl : read = .waiting := hwaits
      have hreceive : receive (wire, stream) = (none, next, { stream with bytesIn := stream.bytesIn + size }) := by
        simp only [receive, hended, hread, Bool.false_eq_true, if_false]
      rw [hreceive]
      refine .inl ⟨hopen, rfl, ?_, rfl⟩
      simp only [receive, hended, hnext, Bool.false_eq_true, if_false, Nat.add_assoc]
    · right
      simp only [receive, hended, hnext, Bool.false_eq_true, if_false]
      rcases wire.nextLine with ⟨read, size, next⟩
      cases read with
      | line text =>
        dsimp only
        cases requestOf stream.id text with
        | error fault => rfl
        | ok received => cases received <;> rfl
      | _ => rfl

theorem call_step_reads (limits : Load.Limits) {shape : Shape} (hshape : ∀ item left, shape ≠ .repeated item left) (shared : Shared)
    (wire : Wire) {stream : CallStream} (hlive : stream.cancelled = false) :
    Call.step peer limits ⟨shape, .head⟩ shared (wire, stream) =
      match receive (wire, stream) with
      | (none, s) => (none, ⟨shape, .head⟩, shared, s)
      | (some (.ok (some request)), s) => (some (.received request), ⟨shape, .running request⟩, shared, s)
      | (some (.ok none), s) => (some .streamEnded, .finished shape (.ok (Call.streamReply shape)), shared, s)
      | (some (.error status), s) => (some (.streamFailed status), .finished shape (.error status), shared, s) := by
  rw [Call.step_reads hshape]
  simp only [peer, hlive]
  rcases receive (wire, stream) with ⟨_ | _ | _ | request, s⟩ <;> rfl

/-- What a step of a call leaves is where it goes when the rest of the text is there, or where it would do the same then. -/
def Stays (limits : Load.Limits) (call : Call) (shared : Shared) (wire : Wire) (stream : CallStream) (missing : List UInt8) : Prop :=
  let (act, next, shared', wire', stream') := call.step peer limits shared (wire, stream)
  (wire.inputEnded = false ∧ next = call ∧ shared' = shared ∧
      call.step peer limits shared (wire.toEnd missing, stream) = call.step peer limits shared (wire'.toEnd missing, stream')) ∨
    call.step peer limits shared (wire.toEnd missing, stream) = (act, next, shared', wire'.toEnd missing, stream')

theorem stays_reading (hcomplete : wire.inputEnded = true → missing = []) (limits : Load.Limits) {shape : Shape}
    (hshape : ∀ item left, shape ≠ .repeated item left) (shared : Shared) (stream : CallStream) :
    Stays limits ⟨shape, .head⟩ shared wire stream missing := by
  unfold Stays
  cases hcancelled : stream.cancelled with
  | true =>
    have hnever : ∀ item, shape ≠ .repeated item 0 := fun item => hshape item 0
    rw [step_cancelled limits shared hnever hcancelled, step_cancelled limits shared hnever hcancelled]
    exact .inr rfl
  | false =>
    rcases receive_toEnd hcomplete stream with ⟨hopen, hwaits, hreceive, hsame⟩ | hreceive
    · rcases hresult : receive (wire, stream) with ⟨received, wire', stream'⟩
      rw [hresult] at hwaits hreceive hsame
      obtain rfl : received = none := hwaits
      rw [call_step_reads limits hshape shared wire hcancelled, hresult]
      refine .inl ⟨hopen, rfl, rfl, ?_⟩
      rw [call_step_reads limits hshape shared _ hcancelled, call_step_reads limits hshape shared _ (hsame.trans hcancelled), hreceive]
    · rw [call_step_reads limits hshape shared wire hcancelled, call_step_reads limits hshape shared _ hcancelled, hreceive]
      rcases receive (wire, stream) with ⟨_ | _ | _ | request, s⟩ <;> exact .inr rfl

theorem stays_step (hcomplete : wire.inputEnded = true → missing = []) (limits : Load.Limits) (call : Call) (shared : Shared)
    (stream : CallStream) : Stays limits call shared wire stream missing := by
  obtain ⟨shape, stage⟩ := call
  cases stage with
  | ended outcome => exact .inr rfl
  | running request => exact .inr rfl
  | sending response =>
    right
    simp only [Call.step, peer, send_toEnd]
    rcases send (wire, stream) response with ⟨_ | _, s⟩ <;> rfl
  | head =>
    cases shape with
    | unary => exact stays_reading hcomplete limits (by simp) shared stream
    | tally summary => exact stays_reading hcomplete limits (by simp) shared stream
    | exchange => exact stays_reading hcomplete limits (by simp) shared stream
    | repeated item left =>
      right
      cases left with
      | zero => rfl
      | succ left => cases hcancelled : stream.cancelled <;> simp only [Call.step, peer, hcancelled]

end

/-! ## Connections whose text is all there -/

/-- The phase without the look-out for the peer, which no step depends on. -/
def Phase.unwatched : Phase → Phase
  | .serving call => .serving { call with watching := false }
  | phase => phase

def unwatched (conn : Connection) : Connection := { conn with phase := conn.phase.unwatched }

/-- The connection with all that is missing from its peer, who then hangs up. -/
def toEnd (missing : List UInt8) (conn : Connection) : Connection := { conn.unwatched with wire := conn.wire.toEnd missing }

/-- One step of such a connection. -/
def proceed (settings : Settings) (state : Connection × Shared) : Connection × Shared :=
  ((state.1.step settings state.2).1.unwatched, (state.1.step settings state.2).2)

section

variable (settings : Settings) {conn : Connection} {missing : List UInt8}

@[simp] theorem unwatched_toEnd (conn : Connection) : (conn.toEnd missing).unwatched = conn.toEnd missing := by
  obtain ⟨wire, shutdown, phase, ids, used, orders, opened⟩ := conn
  cases phase <;> rfl

theorem reject_toEnd (conn : Connection) (response : Response) : ((conn.toEnd missing).reject response).unwatched = (conn.reject response).toEnd missing := by
  simp only [reject, toEnd, unwatched, Wire.write_toEnd]

theorem proceed_takeLine (conn : Connection) (text : List Char) (shared : Shared) :
    let last := takeLine settings (conn.toEnd missing) shared text
    (last.1.unwatched, last.2) = ((takeLine settings conn shared text).1.toEnd missing, (takeLine settings conn shared text).2) := by
  unfold takeLine
  split_ifs
  · exact Prod.ext (unwatched_toEnd conn) rfl
  · cases Request.codec.parse (String.ofList text) with
    | error e => exact Prod.ext (reject_toEnd conn _) rfl
    | ok request =>
      dsimp only
      split_ifs
      · exact Prod.ext (reject_toEnd conn _) rfl
      · rfl

theorem proceed_idle (hcomplete : conn.wire.inputEnded = true → missing = []) (hphase : conn.phase = .idle) (shared : Shared) :
    proceed settings (conn.toEnd missing, shared) = ((conn.step settings shared).1.toEnd missing, (conn.step settings shared).2) ∨
      conn.wire.inputEnded = false ∧ conn.step settings shared = (conn, shared) := by
  obtain ⟨wire, shutdown, phase, ids, used, orders, opened⟩ := conn
  obtain rfl : phase = .idle := hphase
  cases shutdown with
  | true => exact .inl rfl
  | false =>
    simp only [proceed, step, toEnd, unwatched, Phase.unwatched, stepIdle, Bool.false_eq_true, if_false]
    rcases Wire.readLine_toEnd hcomplete with ⟨hopen, hwaits⟩ | hreads
    · dsimp only at hwaits
      rw [hwaits]
      exact .inr ⟨hopen, rfl⟩
    · left
      dsimp only at hreads
      rw [hreads]
      rcases wire.readLine with ⟨read, next⟩
      cases read with
      | line text =>
        exact proceed_takeLine settings { wire := next, ids, idsUsed := used, orders, callsOpened := opened } text shared
      | _ => rfl

theorem proceed_serving (hcomplete : conn.wire.inputEnded = true → missing = []) {call : OpenCall} (hphase : conn.phase = .serving call)
    (shared : Shared) :
    let next := conn.step settings shared
    proceed settings (conn.toEnd missing, shared) = (next.1.toEnd missing, next.2) ∨
      conn.wire.inputEnded = false ∧ next.2 = shared ∧ proceed settings (conn.toEnd missing, shared) = proceed settings (next.1.toEnd missing, shared) := by
  obtain ⟨wire, shutdown, phase, ids, used, orders, opened⟩ := conn
  obtain rfl : phase = .serving call := hphase
  simp only [proceed, step, toEnd, unwatched, Phase.unwatched, stepCall]
  cases houtcome : call.call.outcome? with
  | some outcome =>
    left
    simp only [closeCall, writeLine_toEnd]
    rfl
  | none =>
    have hstays := stays_step hcomplete settings.limits call.call shared call.stream
    unfold Stays at hstays
    dsimp only at hstays ⊢
    generalize hstep : call.call.step peer settings.limits shared (wire, call.stream) = result at hstays
    obtain ⟨act, next, shared', wire', stream'⟩ := result
    dsimp only at hstays ⊢
    rcases hstays with ⟨hopen, rfl, rfl, hsame⟩ | hleads
    · right
      refine ⟨hopen, rfl, ?_⟩
      rw [houtcome]
      dsimp only
      rw [hsame]
    · left
      rw [hleads]

/-- A step leads where it would lead when the rest of the text is there, or leaves the connection where it would then do the same. -/
theorem proceed_toEnd (hcomplete : conn.wire.inputEnded = true → missing = []) (shared : Shared) :
    let next := conn.step settings shared
    proceed settings (conn.toEnd missing, shared) = (next.1.toEnd missing, next.2) ∨
      conn.wire.inputEnded = false ∧ next.2 = shared ∧ proceed settings (conn.toEnd missing, shared) = proceed settings (next.1.toEnd missing, shared) := by
  cases hphase : conn.phase with
  | idle =>
    rcases proceed_idle settings hcomplete hphase shared with hleads | ⟨hopen, hstays⟩
    · exact .inl hleads
    · rw [hstays]
      exact .inr ⟨hopen, rfl, rfl⟩
  | serving call => exact proceed_serving settings hcomplete hphase shared
  | closed failure =>
    obtain ⟨wire, shutdown, phase, ids, used, orders, opened⟩ := conn
    obtain rfl : phase = .closed failure := hphase
    exact .inl rfl

end

/-! ## The end that a connection comes to -/

/-- The connection closes at this end when it goes on by itself. -/
def EndsAt (settings : Settings) (state last : Connection × Shared) : Prop :=
  last.1.isClosed = true ∧ ∃ steps, (proceed settings)^[steps] state = last

/-- The connection closes when it goes on by itself, whatever the service has. -/
inductive Closes (settings : Settings) : Connection → Prop where
  | closed {conn : Connection} (h : conn.isClosed = true) : Closes settings conn
  | step {conn : Connection} (h : ∀ shared, Closes settings (proceed settings (conn, shared)).1) : Closes settings conn

/-- Whether the connection would take the silence of its peer for a hang-up, and cancel its call. -/
def hearsHangUp (conn : Connection) : Bool :=
  match conn.phase with
  | .serving call => call.watching && conn.wire.drained
  | _ => false

/-- An event that cuts no call short: the daemon does not shut down, and no hang-up is heard while a call is watched. -/
structure Undisturbed (conn : Connection) (event : ConnectionEvent) : Prop where
  live : event ≠ .shutdown
  unheard : event = .watch → conn.hearsHangUp = false

section

variable {settings : Settings} {conn : Connection} {missing : List UInt8} {state last : Connection × Shared}

theorem proceed_of_closed (h : state.1.isClosed = true) : proceed settings state = state := by
  obtain ⟨⟨wire, shutdown, phase, ids, used⟩, shared⟩ := state
  cases phase with
  | closed failure => rfl
  | _ => cases h

theorem endsAt_proceed : EndsAt settings (proceed settings state) last ↔ EndsAt settings state last := by
  refine and_congr_right fun hclosed => ⟨fun ⟨steps, h⟩ => ⟨steps + 1, h⟩, fun ⟨steps, h⟩ => ?_⟩
  cases steps with
  | zero =>
    obtain rfl : state = last := h
    exact ⟨0, proceed_of_closed hclosed⟩
  | succ steps => exact ⟨steps, h⟩

/-- A connection whose peer has hung up never waits. -/
theorem proceed_of_ended (hended : conn.wire.inputEnded = true) (shared : Shared) :
    proceed settings (conn.toEnd [], shared) = ((conn.step settings shared).1.toEnd [], (conn.step settings shared).2) := by
  rcases proceed_toEnd settings (fun _ => rfl) shared with hleads | ⟨hopen, -⟩
  · exact hleads
  · rw [hended] at hopen
    cases hopen

/-- A closed connection has come to its end. -/
theorem EndsAt.eq_of_closed (h : EndsAt settings state last) (hclosed : state.1.isClosed = true) : last = state := by
  obtain ⟨-, steps, hlast⟩ := h
  rw [← hlast, Function.iterate_fixed (proceed_of_closed hclosed)]

theorem endsAt_iterate (steps : Nat) : EndsAt settings ((proceed settings)^[steps] state) last ↔ EndsAt settings state last := by
  induction steps generalizing state with
  | zero => exact Iff.rfl
  | succ steps ih =>
    rw [Function.iterate_succ_apply, ih]
    exact endsAt_proceed

/-- A connection comes to one end only. -/
theorem EndsAt.unique {last' : Connection × Shared} (h : EndsAt settings state last) (h' : EndsAt settings state last') : last = last' := by
  obtain ⟨hclosed, steps, rfl⟩ := h
  exact (((endsAt_iterate steps).mpr h').eq_of_closed hclosed).symm

theorem isClosed_toEnd (conn : Connection) : (conn.toEnd missing).isClosed = conn.isClosed := by
  obtain ⟨wire, shutdown, phase, ids, used, orders, opened⟩ := conn
  cases phase <;> rfl

theorem endsAt_of_closed (hclosed : conn.isClosed = true) (shared : Shared) :
    EndsAt settings (conn.toEnd missing, shared) (conn.toEnd missing, shared) :=
  ⟨conn.isClosed_toEnd.trans hclosed, 0, rfl⟩

theorem endsAt_step (hcomplete : conn.wire.inputEnded = true → missing = []) (shared : Shared) :
    EndsAt settings ((conn.step settings shared).1.toEnd missing, (conn.step settings shared).2) last ↔
      EndsAt settings (conn.toEnd missing, shared) last := by
  have hbefore : EndsAt settings (proceed settings (conn.toEnd missing, shared)) last ↔ EndsAt settings (conn.toEnd missing, shared) last :=
    endsAt_proceed
  rw [← hbefore]
  rcases proceed_toEnd settings hcomplete shared with hleads | ⟨-, hshared, hsame⟩
  · rw [hleads]
  · rw [hsame, hshared, endsAt_proceed]

theorem toEnd_watch (h : conn.hearsHangUp = false) : conn.watch.toEnd missing = conn.toEnd missing := by
  have hwatched := conn.watched
  generalize conn.watch = next at hwatched
  cases hwatched with
  | still => rfl
  | stops call hphase =>
    obtain ⟨wire, shutdown, phase, ids, used, orders, opened⟩ := conn
    obtain rfl : phase = .serving call := hphase
    rfl
  | hears call hphase hwatching hdrained =>
    simp [hearsHangUp, hphase, hwatching, hdrained] at h

theorem toEnd_deliver (bytes : List UInt8) : ({ conn with wire := conn.wire.deliver bytes } : Connection).toEnd missing = conn.toEnd (bytes ++ missing) := by
  simp only [toEnd, unwatched, Wire.toEnd, Wire.deliver, List.append_assoc]

/-- An event that cuts nothing short leaves the end as it is. -/
theorem endsAt_apply (hcomplete : conn.wire.inputEnded = true → missing = []) {event : ConnectionEvent} {later : List UInt8}
    (hevent : Brings missing event later) (hundisturbed : conn.Undisturbed event) (shared : Shared) :
    EndsAt settings ((conn.apply settings shared event).1.toEnd later, (conn.apply settings shared event).2) last ↔
      EndsAt settings (conn.toEnd missing, shared) last := by
  cases hevent with
  | deliver bytes => exact iff_of_eq (congrArg (fun conn => EndsAt settings (conn, shared) last) (toEnd_deliver bytes))
  | hangUp => rfl
  | shutdown => exact absurd rfl hundisturbed.live
  | watch => exact iff_of_eq (congrArg (fun conn => EndsAt settings (conn, shared) last) (toEnd_watch (hundisturbed.unheard rfl)))
  | step => exact endsAt_step hcomplete shared

end

end Connection

end LoadGenerator
