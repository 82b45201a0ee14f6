import LoadGenerator.Proofs.Connection.Happenings
import LoadGenerator.Proofs.Daemon.Following

/-!
# The ways of all connections

A daemon serves any number of callers, and what happens to their connections and to the runs of their items follows in any order. What one event changes is one connection, the books by an entry of that connection, and the scratch directory by the file of its run; so all connections stay on the ways that they would go by themselves, and the books are what they have entered.
-/

namespace LoadGenerator

open Message Service

/-! ## Callers -/

/-- A peer by what it sends, with the ids for those of its requests that have none and the orders for the metadata of the responses. -/
structure Caller where
  ids : Nat → String
  orders : Nat → MapOrder
  text : List Char

/-- The connection of a caller before anything has arrived. -/
def Caller.connection (caller : Caller) : Connection := { ids := caller.ids, orders := caller.orders }

/-- The event that a caller connects. -/
def Caller.accept (caller : Caller) : OngoingDaemonEvent := .daemon (.accept caller.ids caller.orders)

/-- What becomes of the connection of a caller that has the service for itself, with what is missing of its text. It is never cut short. -/
inductive Caller.Alone (settings : Settings) (draws : Load.Draws) (caller : Caller) : List UInt8 → Connection × Shared → Prop where
  | start : Alone settings draws caller (Utf8.encode caller.text) (caller.connection, { draws })
  | event {missing later : List UInt8} {state : Connection × Shared} {event : ConnectionEvent} (h : Alone settings draws caller missing state)
      (hevent : Connection.Brings missing event later) (hundisturbed : state.1.Undisturbed event) :
      Alone settings draws caller later (state.1.apply settings state.2 event)

/-- The caller has the service for itself until all that it sends is served and the connection is closed. -/
structure Caller.ServedAlone (settings : Settings) (draws : Load.Draws) (caller : Caller) (state : Connection × Shared) : Prop where
  alone : caller.Alone settings draws [] state
  closed : state.1.isClosed = true

/-- An event of one of so many connections or of its run, which is no shutdown and no look-out for the peer. -/
def OngoingDaemonEvent.isPlain (count : Nat) : OngoingDaemonEvent → Bool
  | .daemon (.connection place event) => place < count && event != .shutdown && event != .watch
  | .run place _ => place < count
  | _ => false

namespace OngoingDaemon

/-- What an event adds to the log. -/
def entries (daemon : OngoingDaemon) (event : OngoingDaemonEvent) : List CallEvent :=
  (daemon.apply event).shared.log.drop daemon.shared.log.length

/-- The events of the connection at a place. -/
def eventsAt (place : Nat) (events : List OngoingDaemonEvent) : List ConnectionEvent :=
  events.filterMap fun
    | .daemon (.connection other event) => if other = place then some event else none
    | _ => none

/-- What becomes of a daemon that serves these callers, none of which is cut short, with what is missing of their texts and what their calls have left in the log. -/
inductive Serves (settings : Settings) (draws : Load.Draws) (directory : Load.Directory) {n : Nat} (callers : Fin n → Caller) :
    (Fin n → List UInt8) → (Fin n → List CallEvent) → OngoingDaemon → Prop where
  | start : Serves settings draws directory callers (fun place => Utf8.encode (callers place).text) (fun _ => []) (start settings draws directory)
  | accept {missing : Fin n → List UInt8} {logs : Fin n → List CallEvent} {daemon : OngoingDaemon}
      (h : Serves settings draws directory callers missing logs daemon) (place : Fin n) (hplace : place.val = daemon.connections.length) :
      Serves settings draws directory callers missing logs (daemon.apply (callers place).accept)
  | connection {missing : Fin n → List UInt8} {logs : Fin n → List CallEvent} {daemon : OngoingDaemon} {place : Fin n}
      {ongoing : OngoingConnection} {event : ConnectionEvent} {later : List UInt8}
      (h : Serves settings draws directory callers missing logs daemon) (hthere : daemon.connections[place.val]? = some ongoing)
      (hevent : Connection.Brings (missing place) event later) (hundisturbed : ongoing.conn.Undisturbed event) :
      Serves settings draws directory callers (Function.update missing place later)
        (Function.update logs place (logs place ++ daemon.entries (.daemon (.connection place event))))
        (daemon.apply (.daemon (.connection place event)))
  | run {missing : Fin n → List UInt8} {logs : Fin n → List CallEvent} {daemon : OngoingDaemon}
      (h : Serves settings draws directory callers missing logs daemon) (place : Fin n) (event : Load.RunEvent) :
      Serves settings draws directory callers missing logs (daemon.apply (.run place event))

end OngoingDaemon

/-! ## Callers that have the service for themselves -/

theorem Connection.BringsAll.eq_of_nil {missing last : List UInt8} (h : BringsAll missing [] last) : last = missing := by
  cases h
  rfl

namespace Caller

section

variable {settings : Settings} {draws : Load.Draws} {caller : Caller} {missing last : List UInt8} {state : Connection × Shared}

theorem Alone.applyAll {events : List ConnectionEvent} (hbrings : Connection.BringsAll missing events last)
    (hquiet : ∀ event ∈ events, event ≠ .shutdown ∧ event ≠ .watch) (h : caller.Alone settings draws missing state) :
    caller.Alone settings draws last (state.1.applyAll settings state.2 events) := by
  induction hbrings generalizing state with
  | nil => exact h
  | cons hevent _ ih =>
    obtain ⟨⟨hlive, hunwatched⟩, hrest⟩ := List.forall_mem_cons.mp hquiet
    exact ih hrest (h.event hevent ⟨hlive, fun hwatch => absurd hwatch hunwatched⟩)

/-- There is a way to serve a caller to the end. -/
theorem exists_servedAlone (settings : Settings) (draws : Load.Draws) (caller : Caller) : ∃ state, caller.ServedAlone settings draws state := by
  have hevents : Connection.BringsAll (Utf8.encode caller.text) [.deliver (Utf8.encode caller.text), .hangUp] [] :=
    .deliver (.cons .hangUp (.nil []))
  obtain ⟨bound, hbound⟩ := (Connection.connection_transcript settings { draws } caller.ids caller.orders caller.text hevents).2 (.inl (by simp))
  have hsteps := Connection.bringsAll_steps [] bound
  obtain ⟨hphase, -⟩ := hbound _ [] hsteps (by rw [List.count_replicate_self])
  refine ⟨_, Alone.applyAll (hevents.append hsteps) (fun event hmem => ?_) .start, by simp only [Connection.isClosed, Caller.connection, hphase]⟩
  simp only [List.mem_append, List.mem_cons, List.not_mem_nil, or_false, List.mem_replicate] at hmem
  rcases hmem with (rfl | rfl) | ⟨-, rfl⟩ <;> simp

theorem Alone.isSettled (hrates : Connection.HasSettledRates caller.text) (h : caller.Alone settings draws missing state) :
    state.1.IsSettled missing := by
  induction h with
  | start => exact ⟨⟨caller.text, ⟨rfl, nofun⟩, hrates⟩, fun _ hphase => by cases hphase⟩
  | event _ hevent _ ih =>
    obtain ⟨next, posting, happly, hnext⟩ := Connection.apply_of_settled settings ih hevent
    rw [happly]
    exact hnext

/-- The end that the caller's connection comes to is the same all the way. -/
theorem Alone.endsAt (hrates : Connection.HasSettledRates caller.text) (h : caller.Alone settings draws missing state)
    (last : Connection × Shared) :
    Connection.EndsAt settings (state.1.toEnd missing, state.2) last ↔
      Connection.EndsAt settings (caller.connection.toEnd (Utf8.encode caller.text), { draws }) last := by
  induction h with
  | start => rfl
  | event hbefore hevent hundisturbed ih =>
    obtain ⟨rest, hexpects, -⟩ := (hbefore.isSettled hrates).expects
    rw [← ih]
    exact Connection.endsAt_apply hexpects.complete hevent hundisturbed _

theorem ServedAlone.endsAt (hrates : Connection.HasSettledRates caller.text) (h : caller.ServedAlone settings draws state) :
    Connection.EndsAt settings (caller.connection.toEnd (Utf8.encode caller.text), { draws }) (state.1.toEnd [], state.2) :=
  (h.alone.endsAt hrates _).mp (Connection.endsAt_of_closed h.closed state.2)

/-- The gauge has the open call, if there is one. -/
theorem Alone.inFlight (h : caller.Alone settings draws missing state) (labels : CallLabels) :
    state.2.metrics.inFlight.count labels = state.1.openLabels?.toList.count labels := by
  induction h with
  | start => rfl
  | @event _ _ state event _ _ _ ih =>
    have heffect := (state.1.effect_apply settings state.2 event).inFlight_eq labels
    omega

theorem ServedAlone.inFlight (h : caller.ServedAlone settings draws state) (labels : CallLabels) :
    state.2.metrics.inFlight.count labels = 0 := by
  have hclosed := h.closed
  rw [h.alone.inFlight]
  unfold Connection.isClosed at hclosed
  cases hphase : state.1.phase with
  | closed failure =>
    rw [Connection.openLabels?, hphase]
    rfl
  | _ =>
    rw [hphase] at hclosed
    cases hclosed

end

end Caller

/-! ## Files in a common directory -/

/-- Some files can be exchanged for others. -/
theorem Load.Directory.Holds.exchange {before directory : Directory} {front files back : List String}
    (h : before.Holds (front ++ files ++ back) directory) :
    ∃ around : Directory, around.Holds files directory ∧
      ∀ files' directory', around.Holds files' directory' → before.Holds (front ++ files' ++ back) directory' := by
  have haround (entries files : List String) : (entries ++ (front ++ files ++ back)).Perm (entries ++ (front ++ back) ++ files) := by
    rw [List.append_assoc entries, List.append_assoc front, List.append_assoc front]
    exact ((List.perm_append_comm.append_left front)).append_left entries
  cases before with
  | none =>
    cases directory with
    | none =>
      obtain ⟨hfront, hback⟩ := List.append_eq_nil_iff.mp (h : front ++ files ++ back = [])
      obtain ⟨rfl, rfl⟩ := List.append_eq_nil_iff.mp hfront
      obtain rfl := hback
      refine ⟨none, rfl, fun files' directory' h' => ?_⟩
      rw [List.nil_append, List.append_nil]
      exact h'
    | some entries => exact absurd h (by simp [Directory.Holds])
  | some before =>
    cases directory with
    | none => exact absurd h (by simp [Directory.Holds])
    | some entries =>
      refine ⟨some (before ++ (front ++ back)), List.Perm.trans h (haround before files), fun files' directory' h' => ?_⟩
      cases directory' with
      | none => exact h'
      | some entries' => exact List.Perm.trans h' (haround before files').symm

namespace OngoingDaemon

/-- The files of all runs. -/
def files (daemon : OngoingDaemon) : List String := daemon.connections.flatMap (·.files)

/-- The connection of a caller, who may be still to come. -/
def seat (daemon : OngoingDaemon) (caller : Caller) (place : Nat) : OngoingConnection :=
  daemon.connections[place]?.getD { conn := caller.connection }

/-- All connections are on their ways to these ends, with these entries in the books, which are all entries that there are. -/
structure Separates (settings : Settings) (draws : Load.Draws) (before : Load.Directory) {n : Nat} (callers : Fin n → Caller)
    (ends : Fin n → Connection × Shared) (missing : Fin n → List UInt8) (ledgers : Fin n → Shared) (daemon : OngoingDaemon) : Prop where
  settings_eq : daemon.settings = settings
  live : daemon.shutdown = false
  draws_eq : daemon.shared.draws = draws
  value : ∀ series, daemon.shared.metrics.value series = ∑ place, (ledgers place).metrics.value series
  follows : ∀ place, (daemon.seat (callers place) place).Follows settings draws (ends place) (missing place) (ledgers place)
  holds : before.Holds daemon.files daemon.directory

section

variable {settings : Settings} {draws : Load.Draws} {before : Load.Directory} {n : Nat} {callers : Fin n → Caller}
  {ends : Fin n → Connection × Shared} {missing : Fin n → List UInt8} {ledgers : Fin n → Shared} {daemon : OngoingDaemon}

theorem seat_of_some {place : Nat} {ongoing : OngoingConnection} (h : daemon.connections[place]? = some ongoing) (caller : Caller) :
    daemon.seat caller place = ongoing := by
  rw [seat, h]
  rfl

theorem changeAt_of_some {place : Nat} {ongoing : OngoingConnection} (hthere : daemon.connections[place]? = some ongoing)
    (change : OngoingConnection → Shared → Load.Directory → OngoingConnection × Shared × Load.Directory) :
    daemon.changeAt place change =
      let after := change ongoing daemon.shared daemon.directory
      { daemon with shared := after.2.1, directory := after.2.2, connections := daemon.connections.set place after.1 } := by
  rw [changeAt, hthere]

/-- What keeps one connection on its way, and its files in the directory among those of the others, keeps all. -/
theorem Separates.change (h : daemon.Separates settings draws before callers ends missing ledgers) {place : Fin n}
    {ongoing : OngoingConnection} (hthere : daemon.connections[place.val]? = some ongoing) :
    ∃ around : Load.Directory, around.Holds ongoing.files daemon.directory ∧
      ∀ {later : List UInt8} {posting : Posting} {after : OngoingConnection × Shared × Load.Directory},
        OngoingConnection.Keeps settings draws (ends place) around later (ledgers place) daemon.shared posting after →
        Separates settings draws before callers ends (Function.update missing place later)
          (Function.update ledgers place ((ledgers place).post posting))
          { daemon with shared := after.2.1, directory := after.2.2, connections := daemon.connections.set place after.1 } := by
  obtain ⟨hbound, hat⟩ := List.getElem?_eq_some_iff.mp hthere
  have hfiles := h.holds
  rw [files, ← List.take_append_drop place daemon.connections, List.drop_eq_getElem_cons hbound, hat, List.flatMap_append,
    List.flatMap_cons, ← List.append_assoc] at hfiles
  obtain ⟨around, hholds, hexchange⟩ := hfiles.exchange
  refine ⟨around, hholds, fun {later posting after} hkeeps => ?_⟩
  obtain ⟨next, shared, directory⟩ := after
  obtain ⟨hshared, hfollows, hholds'⟩ := hkeeps
  dsimp only at hshared hfollows hholds'
  refine ⟨h.settings_eq, h.live, ?_, fun series => ?_, fun other => ?_, ?_⟩
  · rw [← h.draws_eq, hshared, Shared.draws_post]
  · have hentry (other : Fin n) : (Function.update ledgers place ((ledgers place).post posting) other).metrics.value series =
        (ledgers other).metrics.value series + if other = place then posting.adds series else 0 := by
      by_cases hother : other = place
      · rw [hother, Function.update_self, if_pos rfl, Shared.value_post]
      · rw [Function.update_of_ne hother, if_neg hother, Int.add_zero]
    rw [hshared, Shared.value_post, h.value, Finset.sum_congr rfl fun other _ => hentry other, Finset.sum_add_distrib,
      Finset.sum_ite_eq', if_pos (Finset.mem_univ place)]
  · have hfollowsOther := h.follows other
    by_cases hother : other = place
    · subst hother
      have hnext : (daemon.connections.set other next)[other.val]? = some next := List.getElem?_set_self hbound
      rw [Function.update_self, Function.update_self, seat, hnext]
      exact hfollows
    · have hsame : (daemon.connections.set place next)[other.val]? = daemon.connections[other.val]? :=
        List.getElem?_set_ne (fun heq => hother (Fin.ext heq.symm))
      rw [Function.update_of_ne hother, Function.update_of_ne hother, seat, hsame]
      exact hfollowsOther
  · rw [files, List.set_eq_take_append_cons_drop, if_pos hbound, List.flatMap_append, List.flatMap_cons, ← List.append_assoc]
    exact hexchange _ _ hholds'

theorem Separates.accept (h : daemon.Separates settings draws before callers ends missing ledgers) {place : Fin n}
    (hplace : place.val = daemon.connections.length) :
    (daemon.apply (callers place).accept).Separates settings draws before callers ends missing ledgers := by
  have haccept : daemon.apply (callers place).accept =
      { daemon with connections := daemon.connections ++ [{ conn := (callers place).connection }] } := by
    rw [Caller.accept, OngoingDaemon.apply, if_neg (by simp [h.live])]
    rfl
  rw [haccept]
  refine ⟨h.settings_eq, h.live, h.draws_eq, h.value, fun other => ?_, ?_⟩
  · have hseat : (daemon.connections ++ [{ conn := (callers place).connection }])[other.val]?.getD { conn := (callers other).connection } =
        daemon.seat (callers other) other := by
      rw [seat]
      rcases Nat.lt_trichotomy other.val daemon.connections.length with hless | heq | hmore
      · rw [List.getElem?_append_left hless]
      · obtain rfl : other = place := Fin.ext (heq.trans hplace.symm)
        rw [heq, List.getElem?_append_right Nat.le.refl, Nat.sub_self, List.getElem?_eq_none Nat.le.refl]
        rfl
      · rw [List.getElem?_eq_none (by simpa using hmore), List.getElem?_eq_none (Nat.le_of_lt hmore)]
    rw [seat, hseat]
    exact h.follows other
  · rw [files, List.flatMap_append]
    exact (List.append_nil daemon.files).symm ▸ h.holds

theorem Separates.connection (h : daemon.Separates settings draws before callers ends missing ledgers) {place : Fin n}
    {ongoing : OngoingConnection} (hthere : daemon.connections[place.val]? = some ongoing) {event : ConnectionEvent} {later : List UInt8}
    (hevent : Connection.Brings (missing place) event later) (hundisturbed : ongoing.conn.Undisturbed event) :
    ∃ posting, (daemon.apply (.daemon (.connection place event))).shared = daemon.shared.post posting ∧
      (daemon.apply (.daemon (.connection place event))).Separates settings draws before callers ends (Function.update missing place later)
        (Function.update ledgers place ((ledgers place).post posting)) := by
  have hfollows := h.follows place
  rw [seat_of_some hthere, ← h.settings_eq] at hfollows
  obtain ⟨around, hholds, hkept⟩ := h.change hthere
  obtain ⟨posting, hkeeps⟩ := hfollows.apply hholds h.draws_eq hevent hundisturbed
  rw [OngoingDaemon.apply, applyAt, changeAt_of_some hthere]
  refine ⟨posting, hkeeps.shared_eq, hkept ?_⟩
  rw [← h.settings_eq]
  exact hkeeps

theorem Separates.run (h : daemon.Separates settings draws before callers ends missing ledgers) (place : Fin n) (event : Load.RunEvent) :
    (daemon.apply (.run place event)).Separates settings draws before callers ends missing ledgers := by
  rw [OngoingDaemon.apply]
  split_ifs with hinner
  · cases hthere : daemon.connections[place.val]? with
    | none =>
      rw [OngoingDaemon.changeAt, hthere]
      exact h
    | some ongoing =>
      have hfollows := h.follows place
      rw [seat_of_some hthere] at hfollows
      obtain ⟨around, hholds, hkept⟩ := h.change hthere
      have hrunning : event ≠ .drop := fun hdrop => by
        rw [hdrop] at hinner
        cases hinner
      have hsame := hkept (hfollows.applyRun h.draws_eq hholds hrunning)
      rw [Function.update_eq_self, Shared.post, Function.update_eq_self] at hsame
      rw [changeAt_of_some hthere]
      exact hsame
  · exact h

/-- A daemon that serves callers keeps all their connections on their ways. -/
theorem Serves.separates {directory : Load.Directory} {logs : Fin n → List CallEvent}
    (h : Serves settings draws directory callers missing logs daemon) (hrates : ∀ place, Connection.HasSettledRates (callers place).text)
    (sources : Fin n → Load.Draws)
    (hends : ∀ place, Connection.EndsAt settings
      ((callers place).connection.toEnd (Utf8.encode (callers place).text), { draws := sources place }) (ends place)) :
    ∃ ledgers, daemon.Separates settings draws directory callers ends missing ledgers ∧ ∀ place, (ledgers place).log = logs place := by
  induction h with
  | start =>
    refine ⟨fun place => { draws := sources place }, ⟨rfl, rfl, rfl, fun series => ?_, fun place => ?_, .initial directory⟩, fun _ => rfl⟩
    · have hnone (shared : Shared) (hmetrics : shared.metrics = {}) : shared.metrics.value series = 0 := by
        rw [hmetrics]
        cases series <;> rfl
      exact (hnone _ rfl).trans (Finset.sum_eq_zero fun place _ => hnone _ rfl).symm
    · exact ⟨⟨⟨(callers place).text, ⟨rfl, nofun⟩, hrates place⟩, fun _ hphase => by cases hphase⟩, hends place, fun _ _ hitem => by cases hitem⟩
  | accept _ place hplace ih =>
    obtain ⟨ledgers, hseparates, hlogs⟩ := ih
    exact ⟨ledgers, hseparates.accept hplace, hlogs⟩
  | @connection _ _ daemon place _ event _ _ hthere hevent hundisturbed ih =>
    obtain ⟨ledgers, hseparates, hlogs⟩ := ih
    obtain ⟨posting, hshared, hnext⟩ := hseparates.connection hthere hevent hundisturbed
    refine ⟨_, hnext, fun other => ?_⟩
    have hentries : daemon.entries (.daemon (.connection place event)) = posting.entries := by
      rw [entries, hshared, Shared.log_post, List.drop_left]
    by_cases hother : other = place
    · rw [hother, Function.update_self, Function.update_self, Shared.log_post, hlogs, hentries]
    · rw [Function.update_of_ne hother, Function.update_of_ne hother, hlogs]
  | run _ place event ih =>
    obtain ⟨ledgers, hseparates, hlogs⟩ := ih
    exact ⟨ledgers, hseparates.run place event, hlogs⟩

/-! ## Ways to serve callers -/

@[simp] theorem length_changeAt (daemon : OngoingDaemon) (place : Nat)
    (change : OngoingConnection → Shared → Load.Directory → OngoingConnection × Shared × Load.Directory) :
    (daemon.changeAt place change).connections.length = daemon.connections.length := by
  unfold changeAt
  cases daemon.connections[place]? with
  | none => rfl
  | some ongoing => exact List.length_set

theorem eventsAt_cons (place other : Nat) (event : ConnectionEvent) (events : List OngoingDaemonEvent) :
    eventsAt place (.daemon (.connection other event) :: events) =
      if other = place then event :: eventsAt place events else eventsAt place events := by
  unfold eventsAt
  split_ifs with h <;> simp [h]

/-- However events are put in a row that bring each text as a whole and never look out for a peer, the callers are served by them. -/
theorem Serves.applyAll {directory : Load.Directory} {logs : Fin n → List CallEvent} {later : Fin n → List UInt8}
    (h : Serves settings draws directory callers missing logs daemon) (hcount : daemon.connections.length = n)
    {events : List OngoingDaemonEvent} (hplain : ∀ event ∈ events, event.isPlain n = true)
    (hbrings : ∀ place : Fin n, Connection.BringsAll (missing place) (eventsAt place events) (later place)) :
    ∃ logs, Serves settings draws directory callers later logs (daemon.applyAll events) := by
  induction events generalizing missing logs daemon with
  | nil =>
    obtain rfl : missing = later := funext fun place => (hbrings place).eq_of_nil.symm
    exact ⟨logs, h⟩
  | cons event events ih =>
    obtain ⟨hevent, hrest⟩ := List.forall_mem_cons.mp hplain
    cases event with
    | run place event =>
      have hplace : place < n := by simpa [OngoingDaemonEvent.isPlain] using hevent
      have hcount' : (daemon.apply (.run place event)).connections.length = n := by
        rw [OngoingDaemon.apply]
        split_ifs
        · rw [length_changeAt, hcount]
        · exact hcount
      exact ih (h.run ⟨place, hplace⟩ event) hcount' hrest hbrings
    | daemon event =>
      cases event with
      | accept ids orders => cases hevent
      | shutdown => cases hevent
      | connection place event =>
        obtain ⟨⟨hplace, hlive⟩, hunwatched⟩ : (place < n ∧ event ≠ .shutdown) ∧ event ≠ .watch := by
          simpa [OngoingDaemonEvent.isPlain] using hevent
        have hthere : daemon.connections[(⟨place, hplace⟩ : Fin n).val]? = some daemon.connections[place] :=
          List.getElem?_eq_getElem (hcount ▸ hplace)
        have hhere := hbrings ⟨place, hplace⟩
        rw [eventsAt_cons, if_pos rfl] at hhere
        cases hhere with
        | cons hbrought hall =>
          have hcount' : (daemon.apply (.daemon (.connection place event))).connections.length = n := by
            rw [OngoingDaemon.apply, applyAt, length_changeAt, hcount]
          refine ih (h.connection hthere hbrought ⟨hlive, fun hwatch => absurd hwatch hunwatched⟩) hcount' hrest
            fun other => ?_
          by_cases hother : other = ⟨place, hplace⟩
          · rw [hother, Function.update_self]
            exact hall
          · have hbefore := hbrings other
            have hne : place ≠ other.val := fun heq => hother (Fin.ext heq.symm)
            rw [eventsAt_cons, if_neg hne] at hbefore
            rw [Function.update_of_ne hother]
            exact hbefore

end

end OngoingDaemon

end LoadGenerator
