import LoadGenerator.Daemon.Ongoing
import LoadGenerator.Proofs.Connection.Confluence
import LoadGenerator.Proofs.Connection.Settled

/-!
# A connection among others

A connection whose rates are settled goes its own way in a daemon whose items take their time. Whatever happens to it and to the run that its call waits for, it stays on the way to the end that it comes to by itself, where each item is run at once; all it shares are the books, where it makes its own entries, and the scratch directory, where it has its own file.
-/

namespace LoadGenerator

open Message Service

/-! ## Items that are run at once -/

theorem Service.nextItem?_of_running (cancelled : Bool) {call : Call} {request : WorkRequest} (hstage : call.stage = .running request) :
    call.nextItem? cancelled = some (request, call.shape) := by
  rw [Call.nextItem?, hstage]

theorem Service.Call.IsSettled.opened {call : Call} (h : call.IsSettled) {cancelled : Bool} {request : WorkRequest} {shape : Shape}
    (hnext : call.nextItem? cancelled = some (request, shape)) : (Call.mk shape (.running request)).IsSettled := by
  rcases Call.nextItem?_cases hnext with ⟨hstage, rfl⟩ | ⟨-, -, left, hshape, rfl⟩
  · refine ⟨fun other hother => ?_, h.repeated⟩
    obtain rfl := CallStage.running.inj hother
    exact h.running request hstage
  · have hitem := h.repeated request (left + 1) hshape
    refine ⟨fun other hother => ?_, fun other times hother => ?_⟩
    · obtain rfl := CallStage.running.inj hother
      exact hitem
    · obtain ⟨rfl, -⟩ := Shape.repeated.inj hother
      exact hitem

namespace Connection

section

variable (settings : Settings) {conn : Connection} {call : OpenCall}

/-- A step of a call that comes to an item. -/
theorem step_of_item (hphase : conn.phase = .serving call) {request : WorkRequest} {shape : Shape}
    (hnext : call.call.nextItem? call.stream.cancelled = some (request, shape)) (shared : Shared) :
    conn.step settings shared =
      (conn.withCall call (.afterRun request (runItem settings.limits shared request).1 shape), (runItem settings.limits shared request).2) := by
  have hopen : call.call.outcome? = none := by
    rcases Call.nextItem?_cases hnext with ⟨hstage, -⟩ | ⟨hstage, -⟩ <;> rw [Call.outcome?, hstage]
  rw [step, hphase]
  dsimp only
  rw [stepCall, hopen]
  dsimp only
  rw [Call.step_of_looked settings.limits rfl hnext]
  rfl

/-- A call that waits for the run of its item still has the same step before it. -/
theorem step_withCall (hphase : conn.phase = .serving call) {request : WorkRequest} {shape : Shape}
    (hnext : call.call.nextItem? call.stream.cancelled = some (request, shape)) (shared : Shared) :
    (conn.withCall call ⟨shape, .running request⟩).step settings shared = conn.step settings shared := by
  have hphase' : (conn.withCall call ⟨shape, .running request⟩).phase = .serving { call with call := ⟨shape, .running request⟩ } := rfl
  have hnext' : ({ call with call := ⟨shape, .running request⟩ } : OpenCall).call.nextItem? call.stream.cancelled = some (request, shape) := rfl
  rw [step_of_item settings hphase hnext, step_of_item settings hphase' hnext']
  rfl

/-- Apart from its steps, what happens to a connection leaves its call where it stands. -/
theorem serving_apply {missing later : List UInt8} {event : ConnectionEvent} (hevent : Brings missing event later) (hstep : event ≠ .step)
    (hphase : conn.phase = .serving call) (shared : Shared) :
    ∃ call', (conn.apply settings shared event).1.phase = .serving call' ∧ call'.call = call.call := by
  cases hevent with
  | deliver bytes => exact ⟨call, hphase, rfl⟩
  | hangUp => exact ⟨call, hphase, rfl⟩
  | shutdown =>
    refine ⟨{ call with stream := { call.stream with cancelled := true } }, ?_, rfl⟩
    simp only [Connection.apply, cancelCall, hphase]
  | watch =>
    change ∃ call', conn.watch.phase = .serving call' ∧ call'.call = call.call
    have hwatched := conn.watched
    generalize conn.watch = next at hwatched
    cases hwatched with
    | still => exact ⟨call, hphase, rfl⟩
    | stops other hother =>
      obtain rfl := Phase.serving.inj (hphase.symm.trans hother)
      exact ⟨_, rfl, rfl⟩
    | hears other hother =>
      obtain rfl := Phase.serving.inj (hphase.symm.trans hother)
      exact ⟨_, rfl, rfl⟩
  | step => exact absurd rfl hstep

end

/-! ## Connections that close by themselves -/

section

variable {settings : Settings} {conn : Connection} {missing : List UInt8}

theorem phase_of_unwatched {call : OpenCall} (hphase : conn.unwatched.phase = .serving call) :
    ∃ other, conn.phase = .serving other ∧ call.call = other.call := by
  unfold unwatched Phase.unwatched at hphase
  cases hserving : conn.phase with
  | serving other =>
    simp only [hserving] at hphase
    obtain rfl := Phase.serving.inj hphase
    exact ⟨other, rfl, rfl⟩
  | _ => simp only [hserving] at hphase; cases hphase

theorem IsSettled.unwatched (h : conn.IsSettled missing) : conn.unwatched.IsSettled missing := h.same rfl fun _ => phase_of_unwatched

theorem IsSettled.toEnd (h : conn.IsSettled missing) : (conn.toEnd missing).IsSettled [] where
  expects := by
    obtain ⟨rest, hexpects, hrates⟩ := h.expects
    exact ⟨rest, ⟨(List.append_nil _).trans hexpects.bytes, fun _ => rfl⟩, hrates⟩
  call call hphase := by
    obtain ⟨other, hother, hcall⟩ := phase_of_unwatched hphase
    rw [hcall]
    exact h.call other hother

/-- What a connection with settled items does by itself does not depend on the service. -/
theorem closes_of_endsAt (h : conn.IsSettled []) {ledger : Shared} {last : Connection × Shared} (hends : EndsAt settings (conn, ledger) last) :
    Closes settings conn := by
  obtain ⟨hclosed, steps, hlast⟩ := hends
  induction steps generalizing conn ledger with
  | zero =>
    obtain rfl : (conn, ledger) = last := hlast
    exact .closed hclosed
  | succ steps ih =>
    obtain ⟨next, posting, hstep, hnext⟩ := step_of_settled settings h
    have hproceed (shared : Shared) : proceed settings (conn, shared) = (next.unwatched, shared.post posting) := by
      rw [proceed, hstep]
    rw [Function.iterate_succ_apply, hproceed] at hlast
    refine .step fun shared => ?_
    rw [hproceed]
    exact ih hnext.unwatched hlast

end

end Connection

/-! ## Runs that others do not disturb -/

/-- A run is as proper where others have left their files. -/
theorem Load.Run.Proper.inDirectory {limits : Load.Limits} {spec : Load.Spec} {own : Option Load.Draws} {shared draws : Load.Draws}
    {before before' directory : Load.Directory} {run : Load.Run} (h : run.Proper limits spec own shared before draws)
    (hholds : before'.Holds run.files directory) : ({ run with directory } : Load.Run).Proper limits spec own shared before' draws :=
  { h with holds := hholds }

namespace OngoingConnection

/-- The files of the run that the call waits for. -/
def files (ongoing : OngoingConnection) : List String := (ongoing.item?.map fun item => item.2.files).getD []

/-- The connection is on its way to this end, with these entries of its own in the books. -/
structure Follows (settings : Settings) (draws : Load.Draws) (last : Connection × Shared) (ongoing : OngoingConnection)
    (missing : List UInt8) (ledger : Shared) : Prop where
  settled : ongoing.conn.IsSettled missing
  endsAt : Connection.EndsAt settings (ongoing.conn.toEnd missing, ledger) last
  item : ∀ request run, ongoing.item? = some (request, run) →
    ∃ call spec before, ongoing.conn.phase = .serving call ∧ call.call.stage = .running request ∧ toSpec request.config = .ok spec ∧
      run.Proper settings.limits spec none draws before draws ∧ run.stage ≠ .dropped

/-- What an event leaves keeps the connection on its way, with one more entry in the books, and its files in the directory. -/
structure Keeps (settings : Settings) (draws : Load.Draws) (last : Connection × Shared) (before : Load.Directory) (later : List UInt8)
    (ledger shared : Shared) (posting : Posting) (after : OngoingConnection × Shared × Load.Directory) : Prop where
  shared_eq : after.2.1 = shared.post posting
  follows : after.1.Follows settings draws last later (ledger.post posting)
  holds : before.Holds after.1.files after.2.2

section

variable {settings : Settings} {draws : Load.Draws} {last : Connection × Shared} {before : Load.Directory} {missing later : List UInt8}
  {ledger shared : Shared} {directory : Load.Directory} {ongoing : OngoingConnection}

/-- An event that is none of the run's. -/
theorem Follows.apply_conn (h : ongoing.Follows settings draws last missing ledger) {event : ConnectionEvent}
    (hevent : Connection.Brings missing event later) (hundisturbed : ongoing.conn.Undisturbed event)
    (hitem : event = .step → ongoing.item? = none) (shared : Shared) :
    ∃ posting, (ongoing.conn.apply settings shared event).2 = shared.post posting ∧
      Follows settings draws last { ongoing with conn := (ongoing.conn.apply settings shared event).1 } later (ledger.post posting) := by
  obtain ⟨rest, hexpects, -⟩ := h.settled.expects
  obtain ⟨next, posting, happly, hnext⟩ := Connection.apply_of_settled settings h.settled hevent
  have hends := (Connection.endsAt_apply hexpects.complete hevent hundisturbed ledger).mpr h.endsAt
  rw [happly] at hends
  rw [happly]
  refine ⟨posting, rfl, hnext, hends, fun request run hrun => ?_⟩
  obtain ⟨call, spec, before, hphase, hstage, hspec, hproper, hkept⟩ := h.item request run hrun
  have hstep : event ≠ .step := fun heq => by
    rw [hitem heq] at hrun
    cases hrun
  obtain ⟨call', hphase', hcall⟩ := Connection.serving_apply settings hevent hstep hphase shared
  rw [happly] at hphase'
  exact ⟨call', spec, before, hphase', hcall ▸ hstage, hspec, hproper, hkept⟩

/-- What happens to the run changes nothing but the run and its file. -/
theorem Follows.applyRun (h : ongoing.Follows settings draws last missing ledger) (hdraws : shared.draws = draws)
    (hholds : before.Holds ongoing.files directory) {event : Load.RunEvent} (hevent : event ≠ .drop) :
    Keeps settings draws last before missing ledger shared .nothing (ongoing.applyRun shared directory event) := by
  unfold OngoingConnection.applyRun
  cases hitem : ongoing.item? with
  | none => exact ⟨rfl, h, hholds⟩
  | some item =>
    obtain ⟨request, run⟩ := item
    obtain ⟨call, spec, before', hphase, hstage, hspec, hproper, hkept⟩ := h.item request run hitem
    have hfiles : ongoing.files = run.files := by rw [files, hitem]; rfl
    have hbefore := hproper.inDirectory (hfiles ▸ hholds)
    have hafter := hbefore.apply event
    have hbeside : ({ run with directory } : Load.Run).stage ≠ .dropped := hkept
    have hkept' := Load.Run.stage_apply_ne_dropped hbeside shared.draws hevent
    have hrequest : request.IsSettled := (h.settled.call call hphase).running request hstage
    subst hdraws
    dsimp only
    generalize ({ run with directory } : Load.Run).apply shared.draws event = after at hafter hkept' ⊢
    obtain ⟨run', draws'⟩ := after
    obtain rfl : draws' = shared.draws := hafter.draws_eq (spec_of_settled hrequest hspec)
    refine ⟨rfl, ⟨h.settled, h.endsAt, fun other run'' hother => ?_⟩, hafter.holds⟩
    obtain ⟨rfl, rfl⟩ := Prod.mk.inj (Option.some.inj hother)
    exact ⟨call, spec, before, hphase, hstage, hspec, hafter, hkept'⟩

/-- What a step of the connection can do: wait for the run, start one, or do what it would do if items were run at once. -/
inductive Goes (settings : Settings) (ongoing : OngoingConnection) (shared : Shared) (directory : Load.Directory) :
    OngoingConnection × Shared → Prop where
  | waits (request : WorkRequest) (run : Load.Run) (hitem : ongoing.item? = some (request, run)) (hlive : run.outcome? = none) :
      Goes settings ongoing shared directory (ongoing, shared)
  | opens (call : Connection.OpenCall) (request : WorkRequest) (shape : Shape) (spec : Load.Spec) (hitem : ongoing.item? = none)
      (hphase : ongoing.conn.phase = .serving call) (hnext : call.call.nextItem? call.stream.cancelled = some (request, shape))
      (hspec : toSpec request.config = .ok spec) :
      Goes settings ongoing shared directory
        ({ conn := ongoing.conn.withCall call ⟨shape, .running request⟩
           item? := some (request, .start settings.limits spec none call.stream.cancelled directory) }, shared)
  | goes (hdone : ∀ request run, ongoing.item? = some (request, run) → run.outcome?.isSome = true) :
      Goes settings ongoing shared directory
        ({ conn := (ongoing.conn.step settings shared).1 }, (ongoing.conn.step settings shared).2)

theorem goes_stepAtOnce (hitem : ongoing.item? = none) : Goes settings ongoing shared directory (ongoing.stepAtOnce settings shared) := by
  obtain ⟨conn, item⟩ := ongoing
  obtain rfl : item = none := hitem
  exact .goes fun request run hrun => by cases hrun

/-- A call that has the outcome of its run goes on as if the item had been run at once. -/
theorem Follows.closeItem_eq (h : ongoing.Follows settings draws last missing ledger) {call : Connection.OpenCall}
    (hphase : ongoing.conn.phase = .serving call) {request : WorkRequest} {run : Load.Run} (hitem : ongoing.item? = some (request, run))
    {outcome : Load.Outcome} (hreturned : run.outcome? = some outcome) (shared : Shared) :
    ongoing.closeItem shared call request outcome =
      ({ conn := (ongoing.conn.step settings shared).1 }, (ongoing.conn.step settings shared).2) := by
  obtain ⟨call', spec, before', hphase', hstage, hspec, hproper, -⟩ := h.item request run hitem
  obtain rfl : call = call' := Connection.Phase.serving.inj (hphase.symm.trans hphase')
  have hrequest : request.IsSettled := (h.settled.call call hphase).running request hstage
  have hnext := nextItem?_of_running call.stream.cancelled hstage
  rw [OngoingConnection.closeItem, answerItem_of_settled hrequest hspec hproper hreturned, Connection.step_of_item settings hphase hnext]

theorem Follows.goes (h : ongoing.Follows settings draws last missing ledger) (shared : Shared) (directory : Load.Directory) :
    Goes settings ongoing shared directory (ongoing.step settings shared directory) := by
  unfold OngoingConnection.step
  split
  next call request run hphase hitem =>
    cases hreturned : run.outcome? with
    | none => exact .waits request run hitem hreturned
    | some outcome =>
      dsimp only
      rw [h.closeItem_eq hphase hitem hreturned]
      refine .goes fun request' run' hitem' => ?_
      obtain ⟨rfl, rfl⟩ := Prod.mk.inj (Option.some.inj (hitem.symm.trans hitem'))
      rw [hreturned]
      rfl
  next call hphase hitem =>
    split
    next request shape hnext =>
      unfold OngoingConnection.openItem
      cases hspec : toSpec request.config with
      | error e => exact goes_stepAtOnce hitem
      | ok spec => exact .opens call request shape spec hitem hphase hnext hspec
    next => exact goes_stepAtOnce hitem
  next hother hother' =>
    refine goes_stepAtOnce ?_
    cases hitem : ongoing.item? with
    | none => rfl
    | some item =>
      obtain ⟨call, -, -, hphase, -⟩ := h.item item.1 item.2 hitem
      exact absurd hitem (hother call item.1 item.2 hphase)

theorem Follows.opens (h : ongoing.Follows settings draws last missing ledger) {call : Connection.OpenCall}
    (hphase : ongoing.conn.phase = .serving call) {request : WorkRequest} {shape : Shape}
    (hnext : call.call.nextItem? call.stream.cancelled = some (request, shape)) {spec : Load.Spec} (hspec : toSpec request.config = .ok spec)
    (directory : Load.Directory) :
    Follows settings draws last
      { conn := ongoing.conn.withCall call ⟨shape, .running request⟩
        item? := some (request, .start settings.limits spec none call.stream.cancelled directory) } missing ledger := by
  have ⟨rest, hexpects, hrates⟩ := h.settled.expects
  have hexpects' : (ongoing.conn.withCall call ⟨shape, .running request⟩).wire.Expects missing rest := hexpects
  refine ⟨⟨⟨rest, hexpects', hrates⟩, fun other hother => ?_⟩, ?_, fun other run hother => ?_⟩
  · obtain rfl := Connection.Phase.serving.inj hother
    exact (h.settled.call call hphase).opened hnext
  · rw [← Connection.endsAt_step hexpects'.complete, Connection.step_withCall settings hphase hnext,
      Connection.endsAt_step hexpects.complete]
    exact h.endsAt
  · obtain ⟨rfl, rfl⟩ := Prod.mk.inj (Option.some.inj hother)
    exact ⟨_, spec, directory, rfl, rfl, hspec, Load.Run.proper_start settings.limits spec none draws call.stream.cancelled directory,
      Load.Run.stage_start_ne_dropped settings.limits spec none call.stream.cancelled directory⟩

theorem Follows.files_of_done (h : ongoing.Follows settings draws last missing ledger)
    (hdone : ∀ request run, ongoing.item? = some (request, run) → run.outcome?.isSome = true) : ongoing.files = [] := by
  cases hitem : ongoing.item? with
  | none =>
    rw [files, hitem]
    rfl
  | some item =>
    obtain ⟨call, spec, before', -, -, -, hproper, -⟩ := h.item item.1 item.2 hitem
    rw [files, hitem]
    exact hproper.files_of_returned (hdone item.1 item.2 hitem)

theorem Follows.step (h : ongoing.Follows settings draws last missing ledger) (hholds : before.Holds ongoing.files directory) (shared : Shared) :
    ∃ posting, Keeps settings draws last before missing ledger shared posting
      ((ongoing.step settings shared directory).1, (ongoing.step settings shared directory).2, directory) := by
  have hgoes := h.goes shared directory
  generalize ongoing.step settings shared directory = after at hgoes ⊢
  cases hgoes with
  | waits => exact ⟨.nothing, rfl, h, hholds⟩
  | opens call request shape spec hitem hphase hnext hspec =>
    have hnone : ongoing.files = [] := h.files_of_done fun request run hrun => by
      rw [hitem] at hrun
      cases hrun
    have hstart : (Load.Run.start settings.limits spec none call.stream.cancelled directory).files = [] := by
      unfold Load.Run.start
      cases spec.validate settings.limits <;> rfl
    refine ⟨.nothing, rfl, h.opens hphase hnext hspec directory, ?_⟩
    dsimp only [files, Option.map_some, Option.getD_some]
    rw [hstart, ← hnone]
    exact hholds
  | goes hdone =>
    have hfree : ({ conn := ongoing.conn } : OngoingConnection).Follows settings draws last missing ledger :=
      ⟨h.settled, h.endsAt, fun _ _ hnone => by cases hnone⟩
    have hundisturbed : ongoing.conn.Undisturbed .step := ⟨by simp, by simp⟩
    obtain ⟨posting, hshared, hfollows⟩ := hfree.apply_conn (.step missing) hundisturbed (fun _ => rfl) shared
    have hnone := h.files_of_done hdone
    rw [hnone] at hholds
    exact ⟨posting, hshared, hfollows, hholds⟩

theorem conn_hangUp (settings : Settings) (ongoing : OngoingConnection) (shared : Shared) (directory : Load.Directory) :
    (ongoing.apply settings shared directory .hangUp).1.conn = { ongoing.conn with wire := ongoing.conn.wire.endInput } := by
  simp only [apply, Connection.apply]
  split
  next => rfl
  next =>
    unfold OngoingConnection.applyRun
    cases ongoing.item? <;> rfl

/-- Only a connection that is given up gives up its run. -/
theorem runEvent?_ne_drop {event : ConnectionEvent} (hevent : Connection.Brings missing event later) (conn : Connection) :
    runEvent? conn event ≠ some .drop := by
  unfold runEvent?
  cases hevent <;> dsimp only <;> split_ifs <;> simp

/-- What happens on a connection outside of its turns is told to the run as well. -/
theorem apply_of_ne_step (settings : Settings) (ongoing : OngoingConnection) (shared : Shared) (directory : Load.Directory) {event : ConnectionEvent}
    (hevent : event ≠ .step) :
    ongoing.apply settings shared directory event =
      let next := ongoing.conn.apply settings shared event
      let after := { ongoing with conn := next.1 }
      (runEvent? next.1 event).elim (after, next.2, directory) (after.applyRun next.2 directory) := by
  cases event with
  | step => exact absurd rfl hevent
  | _ =>
    simp only [apply]
    split
    next hmeans => simp only [hmeans, Option.elim]
    next hmeans => simp only [hmeans, Option.elim]

/-- Every event that cuts nothing short keeps the connection on its way. -/
theorem Follows.apply (h : ongoing.Follows settings draws last missing ledger) (hholds : before.Holds ongoing.files directory)
    (hdraws : shared.draws = draws) {event : ConnectionEvent} (hevent : Connection.Brings missing event later)
    (hundisturbed : ongoing.conn.Undisturbed event) :
    ∃ posting, Keeps settings draws last before later ledger shared posting (ongoing.apply settings shared directory event) := by
  by_cases hstep : event = .step
  · subst hstep
    cases hevent
    exact h.step hholds shared
  · obtain ⟨posting, hshared, hfollows⟩ := h.apply_conn hevent hundisturbed (fun heq => absurd heq hstep) shared
    refine ⟨posting, ?_⟩
    have hdraws' : (shared.post posting).draws = draws := by rw [Shared.draws_post, hdraws]
    rw [apply_of_ne_step settings ongoing shared directory hstep]
    dsimp only
    rw [hshared]
    cases hmeans : runEvent? (ongoing.conn.apply settings shared event).1 event with
    | none => exact ⟨rfl, hfollows, hholds⟩
    | some event' =>
      have hkept : event' ≠ .drop := fun hdrop => runEvent?_ne_drop hevent _ (hdrop ▸ hmeans)
      have hkeeps := hfollows.applyRun hdraws' hholds hkept
      exact ⟨hkeeps.shared_eq, hkeeps.follows, hkeeps.holds⟩

/-- Once all of the text is there, the connection closes by itself. -/
theorem Follows.closes (h : ongoing.Follows settings draws last missing ledger) : Connection.Closes settings (ongoing.conn.toEnd missing) :=
  Connection.closes_of_endsAt h.settled.toEnd h.endsAt

end

end OngoingConnection

end LoadGenerator
