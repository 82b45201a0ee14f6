import LoadGenerator.Proofs.Daemon.Separation

/-!
# Connections do not interfere

Where no rate in what the callers of a daemon send leaves anything to chance, each is served as by a service of its own: it receives the same bytes and its calls leave the same events in the log, and the counts are the sums of those of the separate services. None waits for another: from wherever the daemon stands, each connection can be taken to its end while the others stay where they are.
-/

namespace LoadGenerator.OngoingDaemon

open Message Service

section

variable {settings : Settings} {draws : Load.Draws} {directory : Load.Directory} {n : Nat} {callers : Fin n → Caller}
  {missing : Fin n → List UInt8} {logs : Fin n → List CallEvent} {daemon : OngoingDaemon} {place : Fin n} {ongoing : OngoingConnection}

/-! ## Events of one connection -/

theorem connections_changeAt_self {place : Nat} (hthere : daemon.connections[place]? = some ongoing)
    (change : OngoingConnection → Shared → Load.Directory → OngoingConnection × Shared × Load.Directory) :
    (daemon.changeAt place change).connections[place]? = some (change ongoing daemon.shared daemon.directory).1 := by
  obtain ⟨hbound, -⟩ := List.getElem?_eq_some_iff.mp hthere
  rw [changeAt_of_some hthere]
  exact List.getElem?_set_self hbound

theorem connections_changeAt_ne {place other : Nat} (hother : other ≠ place)
    (change : OngoingConnection → Shared → Load.Directory → OngoingConnection × Shared × Load.Directory) :
    (daemon.changeAt place change).connections[other]? = daemon.connections[other]? := by
  unfold changeAt
  cases daemon.connections[place]? with
  | none => rfl
  | some ongoing => exact List.getElem?_set_ne hother.symm

theorem connections_connection_self {place : Nat} (hthere : daemon.connections[place]? = some ongoing) (event : ConnectionEvent) :
    (daemon.apply (.daemon (.connection place event))).connections[place]? =
      some (ongoing.apply daemon.settings daemon.shared daemon.directory event).1 :=
  connections_changeAt_self hthere _

theorem apply_run {event : Load.RunEvent} (hinner : event.isInner = true) (place : Nat) :
    daemon.apply (.run place event) = daemon.changeAt place fun ongoing shared directory => ongoing.applyRun shared directory event := by
  rw [OngoingDaemon.apply, if_pos hinner]

theorem Serves.exists_separates (h : Serves settings draws directory callers missing logs daemon)
    (hrates : ∀ place, Connection.HasSettledRates (callers place).text) :
    ∃ ends ledgers, daemon.Separates settings draws directory callers ends missing ledgers := by
  choose alone halone using fun place => (callers place).exists_servedAlone settings draws
  obtain ⟨ledgers, hseparates, -⟩ := h.separates hrates (fun _ => draws) fun place => (halone place).endsAt (hrates place)
  exact ⟨_, ledgers, hseparates⟩

theorem Serves.follows (h : Serves settings draws directory callers missing logs daemon)
    (hrates : ∀ place, Connection.HasSettledRates (callers place).text) (hthere : daemon.connections[place.val]? = some ongoing) :
    daemon.settings = settings ∧ daemon.shared.draws = draws ∧
      (∃ last ledger, ongoing.Follows settings draws last (missing place) ledger) ∧
      ∃ around : Load.Directory, around.Holds ongoing.files daemon.directory := by
  obtain ⟨ends, ledgers, hseparates⟩ := h.exists_separates hrates
  have hfollows := hseparates.follows place
  rw [seat_of_some hthere] at hfollows
  obtain ⟨around, hholds, -⟩ := hseparates.change hthere
  exact ⟨hseparates.settings_eq, hseparates.draws_eq, ⟨_, _, hfollows⟩, around, hholds⟩

theorem Serves.step (h : Serves settings draws directory callers missing logs daemon)
    (hrates : ∀ place, Connection.HasSettledRates (callers place).text) (hthere : daemon.connections[place.val]? = some ongoing) :
    ∃ logs after, Serves settings draws directory callers missing logs (daemon.apply (.daemon (.connection place .step))) ∧
      (daemon.apply (.daemon (.connection place .step))).connections[place.val]? = some after.1 ∧
      OngoingConnection.Goes settings ongoing daemon.shared daemon.directory after := by
  obtain ⟨hsettings, -, ⟨last, ledger, hfollows⟩, -⟩ := h.follows hrates hthere
  have hserves := h.connection hthere (.step (missing place)) ⟨by simp, by simp⟩
  rw [Function.update_eq_self] at hserves
  refine ⟨_, ongoing.step settings daemon.shared daemon.directory, hserves, ?_, hfollows.goes daemon.shared daemon.directory⟩
  rw [connections_connection_self hthere, hsettings]
  rfl

/-! ## The way to the end of one connection -/

/-- The connection at a place is closed. -/
def ClosedAt (daemon : OngoingDaemon) (place : Nat) : Prop := ∃ ongoing, daemon.connections[place]? = some ongoing ∧ ongoing.conn.isClosed = true

/-- The daemon can take the connection at a place to its end, and leave all others where they are. -/
def CanClose (settings : Settings) (draws : Load.Draws) (directory : Load.Directory) (callers : Fin n → Caller) (missing : Fin n → List UInt8)
    (daemon : OngoingDaemon) (place : Fin n) : Prop :=
  ∃ events logs, Serves settings draws directory callers missing logs (daemon.applyAll events) ∧ (daemon.applyAll events).ClosedAt place ∧
    ∀ other : Nat, other ≠ place → (daemon.applyAll events).connections[other]? = daemon.connections[other]?

theorem CanClose.of_apply {event : OngoingDaemonEvent} (hsame : ∀ other : Nat, other ≠ place →
      (daemon.apply event).connections[other]? = daemon.connections[other]?)
    (h : CanClose settings draws directory callers missing (daemon.apply event) place) :
    CanClose settings draws directory callers missing daemon place := by
  obtain ⟨events, logs, hserves, hclosed, hothers⟩ := h
  exact ⟨event :: events, logs, hserves, hclosed, fun other hother => (hothers other hother).trans (hsame other hother)⟩

theorem CanClose.of_connection (event : ConnectionEvent)
    (h : CanClose settings draws directory callers missing (daemon.apply (.daemon (.connection place event))) place) :
    CanClose settings draws directory callers missing daemon place := by
  refine h.of_apply fun other hother => ?_
  exact connections_changeAt_ne hother _

theorem CanClose.of_run {event : Load.RunEvent} (hinner : event.isInner = true)
    (h : CanClose settings draws directory callers missing (daemon.apply (.run place event)) place) :
    CanClose settings draws directory callers missing daemon place := by
  refine h.of_apply fun other hother => ?_
  rw [apply_run hinner]
  exact connections_changeAt_ne hother _

section

variable (hrates : ∀ place, Connection.HasSettledRates (callers place).text)

include hrates

section

variable {conn : Connection} (hnext : ∀ {daemon : OngoingDaemon} {logs : Fin n → List CallEvent},
  Serves settings draws directory callers missing logs daemon → ∀ shared, daemon.connections[place.val]? = some { conn := (conn.step settings shared).1 } →
    CanClose settings draws directory callers missing daemon place)

include hnext

/-- A call that waits for its run goes on when the run has returned. -/
theorem Serves.canClose_of_returning {events : List Load.RunEvent} (hinner : ∀ event ∈ events, event.isInner = true)
    (h : Serves settings draws directory callers missing logs daemon) {request : WorkRequest} {run : Load.Run}
    (hthere : daemon.connections[place.val]? = some { conn, item? := some (request, run) })
    (hreturns : (({ run with directory := daemon.directory } : Load.Run).applyAll daemon.shared.draws events).1.outcome?.isSome = true) :
    CanClose settings draws directory callers missing daemon place := by
  induction events generalizing daemon logs run with
  | nil =>
    obtain ⟨logs, after, hserves, hat, hgoes⟩ := h.step hrates hthere
    refine .of_connection .step ?_
    cases hgoes with
    | waits request' run' hitem hlive =>
      obtain ⟨rfl, rfl⟩ := Prod.mk.inj (Option.some.inj hitem)
      have hreturned : run.outcome?.isSome = true := hreturns
      rw [hlive] at hreturned
      cases hreturned
    | opens call request' shape spec hitem => cases hitem
    | goes => exact hnext hserves daemon.shared hat
  | cons event events ih =>
    obtain ⟨hevent, hrest⟩ := List.forall_mem_cons.mp hinner
    have hat : (daemon.apply (.run place event)).connections[place.val]? =
        some { conn, item? := some (request, (({ run with directory := daemon.directory } : Load.Run).apply daemon.shared.draws event).1) } := by
      rw [apply_run hevent, connections_changeAt_self hthere]
      rfl
    refine .of_run hevent (ih hrest (h.run place event) hat ?_)
    rw [apply_run hevent, changeAt_of_some hthere]
    exact hreturns

theorem Serves.canClose_of_item (h : Serves settings draws directory callers missing logs daemon) {request : WorkRequest} {run : Load.Run}
    (hthere : daemon.connections[place.val]? = some { conn, item? := some (request, run) }) :
    CanClose settings draws directory callers missing daemon place := by
  obtain ⟨-, hdraws, ⟨last, ledger, hfollows⟩, around, hholds⟩ := h.follows hrates hthere
  obtain ⟨call, spec, before, -, -, -, hproper, hkept⟩ := hfollows.item request run rfl
  obtain ⟨events, hinner, hreturns⟩ := (hproper.inDirectory hholds).canReturn hkept
  rw [← hdraws] at hreturns
  exact h.canClose_of_returning hrates hnext hinner hthere hreturns

end

/-- What a connection does by itself the daemon can have done, whether that takes a run or not. -/
theorem Serves.canClose_of_next (h : Serves settings draws directory callers missing logs daemon)
    (hthere : daemon.connections[place.val]? = some ongoing)
    (hnext : ∀ {daemon : OngoingDaemon} {logs : Fin n → List CallEvent}, Serves settings draws directory callers missing logs daemon →
      ∀ shared, daemon.connections[place.val]? = some { conn := (ongoing.conn.step settings shared).1 } →
        CanClose settings draws directory callers missing daemon place) : CanClose settings draws directory callers missing daemon place := by
  obtain ⟨conn, item⟩ := ongoing
  cases item with
  | some item => exact h.canClose_of_item hrates hnext hthere
  | none =>
    obtain ⟨logs, after, hserves, hat, hgoes⟩ := h.step hrates hthere
    refine .of_connection .step ?_
    cases hgoes with
    | waits request run hitem => cases hitem
    | opens call request shape spec hitem hphase hitemNext hspec =>
      refine hserves.canClose_of_item hrates (fun hserves' shared hat' => hnext hserves' shared ?_) hat
      rw [Connection.step_withCall settings hphase hitemNext] at hat'
      exact hat'
    | goes => exact hnext hserves daemon.shared hat

/-- Where all of its text is there, a connection can be closed. -/
theorem Serves.canClose (h : Serves settings draws directory callers missing logs daemon) (hmissing : missing place = [])
    (hthere : daemon.connections[place.val]? = some ongoing) : CanClose settings draws directory callers missing daemon place := by
  obtain ⟨-, -, ⟨last, ledger, hfollows⟩, -⟩ := h.follows hrates hthere
  have hcloses := hfollows.closes
  rw [hmissing] at hcloses
  clear hfollows
  generalize hconn : ongoing.conn.toEnd [] = conn at hcloses
  induction hcloses generalizing daemon logs ongoing with
  | closed hclosed =>
    rw [← hconn, Connection.isClosed_toEnd] at hclosed
    exact ⟨[], logs, h, ⟨ongoing, hthere, hclosed⟩, fun _ _ => rfl⟩
  | step _ ih =>
    have hhangUp : Connection.Brings (missing place) .hangUp [] := hmissing ▸ .hangUp
    have hserves := h.connection hthere hhangUp ⟨by simp, by simp⟩
    rw [← hmissing, Function.update_eq_self] at hserves
    obtain ⟨ended, hended, hat⟩ : ∃ ended : OngoingConnection, ended.conn = { ongoing.conn with wire := ongoing.conn.wire.endInput } ∧
        (daemon.apply (.daemon (.connection place .hangUp))).connections[place.val]? = some ended :=
      ⟨_, OngoingConnection.conn_hangUp .., connections_connection_self hthere .hangUp⟩
    refine .of_connection .hangUp (hserves.canClose_of_next hrates hat fun hserves' shared hat' => ih shared hserves' hat' ?_)
    have hsame : ended.conn.toEnd [] = ongoing.conn.toEnd [] := by rw [hended]; rfl
    have hinput : ended.conn.wire.inputEnded = true := by rw [hended]; rfl
    rw [← hconn, ← hsame, Connection.proceed_of_ended hinput]

end

/-! ## The way to the end of all connections -/

/-- The callers that are still to come can be accepted. -/
theorem Serves.exists_accepted (h : Serves settings draws directory callers missing logs daemon)
    (hrates : ∀ place, Connection.HasSettledRates (callers place).text) :
    ∃ events, Serves settings draws directory callers missing logs (daemon.applyAll events) ∧ n ≤ (daemon.applyAll events).connections.length := by
  induction hleft : n - daemon.connections.length generalizing daemon with
  | zero => exact ⟨[], h, Nat.le_of_sub_eq_zero hleft⟩
  | succ left ih =>
    have hroom : daemon.connections.length < n := by omega
    have hserves := h.accept ⟨daemon.connections.length, hroom⟩ rfl
    obtain ⟨ends, ledgers, hseparates⟩ := h.exists_separates hrates
    have hcount : (daemon.apply (callers ⟨daemon.connections.length, hroom⟩).accept).connections.length =
        daemon.connections.length + 1 := by
      rw [Caller.accept, OngoingDaemon.apply, if_neg (by simp [hseparates.live])]
      exact List.length_append
    obtain ⟨events, hevents, hall⟩ := ih hserves (by omega)
    exact ⟨_ :: events, hevents, hall⟩

/-- The text of a caller who is there can arrive as a whole and its connection be closed. -/
theorem Serves.canClose_arriving (h : Serves settings draws directory callers missing logs daemon)
    (hrates : ∀ place, Connection.HasSettledRates (callers place).text) (hthere : daemon.connections[place.val]? = some ongoing) :
    CanClose settings draws directory callers (Function.update missing place []) daemon place := by
  have hdeliver : Connection.Brings (missing place) (.deliver (missing place)) [] := by
    have hbrings := Connection.Brings.deliver (missing place) []
    rwa [List.append_nil] at hbrings
  have hserves := h.connection hthere hdeliver ⟨by simp, by simp⟩
  have hat := connections_connection_self hthere (.deliver (missing place))
  exact .of_connection _ (hserves.canClose hrates (Function.update_self ..) hat)

theorem Serves.exists_closed_below (h : Serves settings draws directory callers missing logs daemon)
    (hrates : ∀ place, Connection.HasSettledRates (callers place).text) (hall : n ≤ daemon.connections.length) (count : Nat) :
    ∃ events later logs, Serves settings draws directory callers later logs (daemon.applyAll events) ∧
      (∀ place : Fin n, ∃ ongoing, (daemon.applyAll events).connections[place.val]? = some ongoing) ∧
      ∀ place : Fin n, place.val < count → later place = [] ∧ (daemon.applyAll events).ClosedAt place := by
  induction count with
  | zero =>
    refine ⟨[], missing, logs, h, fun place => ⟨_, List.getElem?_eq_getElem (lt_of_lt_of_le place.isLt hall)⟩, fun place hplace => ?_⟩
    exact absurd hplace (Nat.not_lt_zero _)
  | succ count ih =>
    obtain ⟨events, later, logs, hserves, hthere, hclosed⟩ := ih
    by_cases hcount : count < n
    · obtain ⟨ongoing, hat⟩ := hthere ⟨count, hcount⟩
      obtain ⟨more, logs, hserves', hdone, hothers⟩ := hserves.canClose_arriving hrates hat
      have happend : (daemon.applyAll events).applyAll more = daemon.applyAll (events ++ more) := List.foldl_append.symm
      rw [happend] at hserves' hdone hothers
      refine ⟨events ++ more, _, logs, hserves', fun place => ?_, fun place hplace => ?_⟩
      · by_cases hhere : place.val = count
        · obtain ⟨ongoing, hat, -⟩ := hdone
          exact ⟨ongoing, hhere ▸ hat⟩
        · rw [hothers place.val hhere]
          exact hthere place
      · by_cases hhere : place = ⟨count, hcount⟩
        · rw [hhere, Function.update_self]
          exact ⟨rfl, hdone⟩
        · have hother : place.val ≠ count := fun heq => hhere (Fin.ext heq)
          have hbelow : place.val < count := by omega
          rw [Function.update_of_ne hhere, ClosedAt, hothers place.val hother]
          exact hclosed place hbelow
    · refine ⟨events, later, logs, hserves, hthere, fun place _ => hclosed place ?_⟩
      exact lt_of_lt_of_le place.isLt (Nat.le_of_not_lt hcount)

theorem Serves.exists_finished (h : Serves settings draws directory callers missing logs daemon)
    (hrates : ∀ place, Connection.HasSettledRates (callers place).text) :
    ∃ events logs, Serves settings draws directory callers (fun _ => []) logs (daemon.applyAll events) ∧
      ∀ place : Fin n, (daemon.applyAll events).ClosedAt place := by
  obtain ⟨first, haccepted, hall⟩ := h.exists_accepted hrates
  obtain ⟨more, later, logs, hserves, -, hclosed⟩ := haccepted.exists_closed_below hrates hall n
  have happend : (daemon.applyAll first).applyAll more = daemon.applyAll (first ++ more) := List.foldl_append.symm
  rw [happend] at hserves hclosed
  obtain rfl : later = fun _ => [] := funext fun place => (hclosed place place.isLt).1
  exact ⟨first ++ more, logs, hserves, fun place => (hclosed place place.isLt).2⟩

/-- However many callers a daemon serves, and in whatever order the steps of their connections and those of the runs follow: where no rate in what is sent is strictly between zero and one, no caller is in the way of another.

From wherever the daemon stands, each connection can be taken to its end while the others stay where they are, and so can all of them; and so could a service of its own serve each caller. When all are served, each connection has received the same bytes as from a service of its own with the same ids and orders of metadata, and its calls have left the same events in the log; each series of the counts is the sum of those of the separate services, and no call is left in the gauge. -/
theorem connections_are_separate (callers : Fin n → Caller) (hrates : ∀ place, Connection.HasSettledRates (callers place).text)
    (h : Serves settings draws directory callers missing logs daemon) (sources : Fin n → Load.Draws) :
    (∀ place : Fin n, place.val < daemon.connections.length →
      CanClose settings draws directory callers (Function.update missing place []) daemon place) ∧
    (∃ events logs, Serves settings draws directory callers (fun _ => []) logs (daemon.applyAll events) ∧
      ∀ place : Fin n, (daemon.applyAll events).ClosedAt place) ∧
    (∀ place, ∃ state, (callers place).ServedAlone settings (sources place) state) ∧
    ∀ alone : Fin n → Connection × Shared, (∀ place, (callers place).ServedAlone settings (sources place) (alone place)) →
      (∀ place, missing place = []) → (∀ place : Fin n, daemon.ClosedAt place) →
      (∀ (place : Fin n) ongoing, daemon.connections[place.val]? = some ongoing →
        ongoing.conn.wire.outbox = (alone place).1.wire.outbox ∧ logs place = (alone place).2.log) ∧
      (∀ series, daemon.shared.metrics.value series = ∑ place, (alone place).2.metrics.value series) ∧
      ∀ labels, daemon.shared.metrics.inFlight.count labels = 0 := by
  refine ⟨fun place hplace => h.canClose_arriving hrates (List.getElem?_eq_getElem hplace), h.exists_finished hrates,
    fun place => (callers place).exists_servedAlone settings (sources place), fun alone halone hmissing hclosed => ?_⟩
  obtain ⟨ledgers, hseparates, hlogs⟩ := h.separates hrates sources fun place => (halone place).endsAt (hrates place)
  have hend (place : Fin n) {ongoing : OngoingConnection} (hthere : daemon.connections[place.val]? = some ongoing) :
      ongoing.conn.wire.outbox = (alone place).1.wire.outbox ∧ ledgers place = (alone place).2 := by
    obtain ⟨other, hother, hdone⟩ := hclosed place
    obtain rfl : ongoing = other := Option.some.inj (hthere.symm.trans hother)
    have hfollows := hseparates.follows place
    rw [seat_of_some hthere, hmissing] at hfollows
    have hstate := hfollows.endsAt.eq_of_closed (ongoing.conn.isClosed_toEnd.trans hdone)
    obtain ⟨hconn, hledger⟩ := Prod.mk.inj hstate
    exact ⟨congrArg (fun conn => conn.wire.outbox) hconn.symm, hledger.symm⟩
  have hledgers : ledgers = fun place => (alone place).2 := funext fun place => by
    obtain ⟨ongoing, hthere, -⟩ := hclosed place
    exact (hend place hthere).2
  have hvalue (series : Series) : daemon.shared.metrics.value series = ∑ place, (alone place).2.metrics.value series := by
    rw [hseparates.value, hledgers]
  refine ⟨fun place ongoing hthere => ⟨(hend place hthere).1, ?_⟩, hvalue, fun labels => ?_⟩
  · rw [← hlogs, (hend place hthere).2]
  · exact (hvalue (.inFlight labels)).trans (Finset.sum_eq_zero fun place _ => (halone place).inFlight labels)

/-- A caller that has an item written, and its response with the metadata in this order. -/
def writer (order : MapOrder) : Caller where
  ids := toString
  orders _ := order
  text := "\x7b\"jsonrpc\":\"2.0\",\"method\":\"burner.DoWork\",\"params\":\x7b\"config\":\x7b\"mode\":4,\"duration_ms\":5,\"io_bytes\":1\x7d\x7d,\"metadata\":\x7b\"x-trace-id\":\"t\"\x7d\x7d\n".toList

/-- Two items that write at the same time, and two responses that write their metadata in different orders. -/
theorem connections_are_separate_two_writers :
    let callers : Fin 2 → Caller := fun place => writer (if place = 0 then .listed else .reversed)
    let text := (writer .listed).text
    let accepted := ((start { limits := .unbounded } (.cycle []) (some [])).apply (callers 0).accept).apply (callers 1).accept
    let daemon := accepted.applyAll [
      .daemon (.connection 0 (.deliver (Utf8.encode text))), .daemon (.connection 0 .step), .daemon (.connection 0 .step), .run 0 .resume,
      .daemon (.connection 1 (.deliver (Utf8.encode text))), .daemon (.connection 1 .step), .run 0 .launch, .daemon (.connection 1 .step),
      .run 1 .resume, .run 1 .launch, .run 1 (.move 0 (.create "burner-io-1")), .run 0 (.move 0 (.create "burner-io-0")),
      .run 0 .deadline, .run 0 (.move 0 .step), .run 0 (.join 0), .run 1 .deadline, .run 0 .conclude, .daemon (.connection 0 .step),
      .run 1 (.move 0 .step), .run 1 (.join 0), .run 1 .conclude, .daemon (.connection 1 .step), .daemon (.connection 1 .step),
      .daemon (.connection 1 .hangUp), .daemon (.connection 0 .step), .daemon (.connection 0 .hangUp), .daemon (.connection 0 .step),
      .daemon (.connection 1 .step)]
    ∃ (logs : Fin 2 → List CallEvent) (alone : Fin 2 → Connection × Shared),
      Serves { limits := .unbounded } (.cycle []) (some []) callers (fun _ => []) logs daemon ∧
      (∀ place, (callers place).ServedAlone { limits := .unbounded } (.cycle []) (alone place)) ∧
      (∀ (place : Fin 2) ongoing, daemon.connections[place.val]? = some ongoing →
        ongoing.conn.wire.outbox = (alone place).1.wire.outbox ∧ logs place = (alone place).2.log) ∧
      (alone 0).1.wire.outbox ≠ (alone 1).1.wire.outbox ∧ ∑ place, (alone place).2.metrics.value (.runs ⟨"LOAD_MODE_IO", "success"⟩) = 2 := by
  intro callers text accepted daemon
  have haccepted : Serves { limits := .unbounded } (.cycle []) (some []) callers (fun _ => Utf8.encode text) (fun _ => []) accepted :=
    .accept (.accept .start 0 rfl) 1 rfl
  have hbrought : Connection.BringsAll (Utf8.encode text)
      [.deliver (Utf8.encode text), .step, .step, .step, .step, .hangUp, .step] [] :=
    .deliver (.append (Connection.bringsAll_steps [] 4) (.cons .hangUp (.cons (.step []) (.nil []))))
  obtain ⟨logs, hserves⟩ : ∃ logs, Serves { limits := .unbounded } (.cycle []) (some []) callers (fun _ => []) logs daemon :=
    haccepted.applyAll rfl (by decide +kernel) fun place => by fin_cases place <;> exact hbrought
  have hrates : Connection.HasSettledRates text := by decide +kernel
  have hends : daemon.connections.map (·.conn.isClosed) = [true, true] := by decide +kernel
  have hclosed (place : Fin 2) : daemon.ClosedAt place := by
    have hflag : (daemon.connections.map (·.conn.isClosed))[place.val]? = some true := by
      rw [hends]
      fin_cases place <;> rfl
    rw [List.getElem?_map] at hflag
    exact Option.map_eq_some_iff.mp hflag
  have htwice : daemon.shared.metrics.value (.runs ⟨"LOAD_MODE_IO", "success"⟩) = 2 := by decide +kernel
  obtain ⟨-, -, halone, hsame⟩ := connections_are_separate callers (fun _ => hrates) hserves fun _ => .cycle []
  choose alone halone using halone
  obtain ⟨hplaces, hvalue, -⟩ := hsame alone halone (fun _ => rfl) hclosed
  have hdiffer : daemon.connections[0]?.map (·.conn.wire.outbox) ≠ daemon.connections[1]?.map (·.conn.wire.outbox) := by decide +kernel
  refine ⟨logs, alone, hserves, halone, hplaces, fun heq => ?_, by rw [← hvalue, htwice]⟩
  obtain ⟨first, hfirst, -⟩ := hclosed 0
  obtain ⟨second, hsecond, -⟩ := hclosed 1
  have hsame : daemon.connections[0]?.map (·.conn.wire.outbox) = daemon.connections[1]?.map (·.conn.wire.outbox) := by
    rw [show daemon.connections[0]? = _ from hfirst, show daemon.connections[1]? = _ from hsecond, Option.map_some, Option.map_some,
      (hplaces 0 first hfirst).1, (hplaces 1 second hsecond).1, heq]
  exact hdiffer hsame

end

end LoadGenerator.OngoingDaemon
