import LoadGenerator.Proofs.Session.Invariant

/-!
# Client and daemon compose

However the steps of a client and of its connection and the arrival of bytes follow each other, the calls of the client can all be brought to an end from wherever the session stands: if neither side can go on once everything has arrived, then the client waits for more lines than it has to write and the connection for no fewer than it has to write, and these cannot both be. When a call returns, the channels are empty, and what it returns is what the daemon's call gave.
-/

namespace LoadGenerator

open Message Service Client

namespace Session

section

variable {settings : Settings} {errands : List Errand} {start : Load.Draws} {session : Session} {call : Client.OpenCall} {standing : Standing}

theorem applyAll_append (session : Session) (first second : List SessionEvent) :
    session.applyAll settings (first ++ second) = (session.applyAll settings first).applyAll settings second :=
  List.foldl_append

/-! ## Ways to go on -/

theorem Calls.errands_stepClient (h : session.Calls settings errands start call standing) : session.stepClient.errands = session.errands := by
  unfold Session.stepClient
  cases session.client.result? with
  | some result => rfl
  | none => rw [h.calling]

/-- Once everything on its way has arrived, the client or the connection can go on. -/
theorem Calls.advance (h : session.Calls settings errands start call standing) (hlive : call.result? = none) :
    ∃ events call' standing', (session.applyAll settings events).Calls settings errands start call' standing' ∧
      (session.applyAll settings events).errands = session.errands ∧
      (session.applyAll settings events).rank standing' < session.rank standing := by
  let arrived := (session.carryToDaemon session.client.wire.outbox.length).carryToClient session.connection.wire.outbox.length
  have harrived : arrived.Calls settings errands start call standing := (h.carryToDaemon _).carryToClient _
  have hdaemon : arrived.client.wire.outbox = [] := List.drop_length
  have hclient : arrived.connection.wire.outbox = [] := List.drop_length
  rcases harrived.stepClient hlive with ⟨-, hclientWaits⟩ | ⟨call', standing', hnext, hrank⟩
  · obtain ⟨-, hmore, hframes⟩ := hclientWaits hclient
    rcases harrived.stepDaemon with ⟨-, hdaemonWaits⟩ | ⟨standing', hnext, hrank⟩
    · obtain ⟨-, hfewer | ⟨line, hline, hopens⟩⟩ := hdaemonWaits hdaemon
      · exact absurd hmore (Nat.not_lt.mpr hfewer)
      · exact absurd hopens (hframes line hline)
    · exact ⟨[.toDaemon session.client.wire.outbox.length, .toClient session.connection.wire.outbox.length, .daemon],
        call, standing', hnext, rfl, hrank⟩
  · exact ⟨[.toDaemon session.client.wire.outbox.length, .toClient session.connection.wire.outbox.length, .client],
      call', standing', hnext, harrived.errands_stepClient, hrank⟩

theorem Calls.exists_returned (h : session.Calls settings errands start call standing) :
    ∃ events call' standing' result, (session.applyAll settings events).Calls settings errands start call' standing' ∧
      call'.result? = some result ∧ (session.applyAll settings events).errands = session.errands := by
  induction hn : session.rank standing using Nat.strong_induction_on generalizing session call standing with
  | _ n ih =>
    cases hresult : call.result? with
    | some result => exact ⟨[], call, standing, result, h, hresult, rfl⟩
    | none =>
      obtain ⟨events, call', standing', hnext, herrands, hrank⟩ := h.advance hresult
      obtain ⟨more, last, standing'', result, hlast, hreturned, hsame⟩ := ih _ (hn ▸ hrank) hnext rfl
      refine ⟨events ++ more, last, standing'', result, ?_, hreturned, ?_⟩
      · rwa [applyAll_append]
      · rw [applyAll_append, hsame, herrands]

theorem Rests.exists_over (h : session.Rests settings errands start) (hsendable : ∀ errand ∈ errands, errand.invocation.IsSendable) :
    ∃ events, (session.applyAll settings events).isOver = true := by
  induction herrands : session.errands generalizing session with
  | nil =>
    refine ⟨[], ?_⟩
    rw [isOver, applyAll, List.foldl_nil, herrands, h.free]
    rfl
  | cons errand rest ih =>
    obtain ⟨done, hall, -⟩ := h.returned
    have hfirst : errand.invocation.IsSendable := hsendable errand (by rw [hall, herrands]; simp)
    obtain ⟨call, standing, hcalls, hrest⟩ := h.begin herrands hfirst
    obtain ⟨events, call', standing', result, hcalls', hreturned, hsame⟩ := hcalls.exists_returned
    obtain ⟨hrests, hsame'⟩ := hcalls'.note hreturned
    obtain ⟨more, hover⟩ := ih hrests (hsame'.trans (hsame.trans hrest))
    refine ⟨.client :: events ++ .client :: more, ?_⟩
    rw [applyAll_append]
    exact hover

/-- Every session can be brought to its end from where it stands. -/
theorem InStep.exists_over (h : session.InStep settings errands start) (hsendable : ∀ errand ∈ errands, errand.invocation.IsSendable) :
    ∃ events, (session.applyAll settings events).isOver = true := by
  rcases h with h | ⟨call, standing, h⟩
  · exact h.exists_over hsendable
  · obtain ⟨events, call', standing', result, hcalls, hreturned, -⟩ := h.exists_returned
    obtain ⟨more, hover⟩ := (hcalls.note hreturned).1.exists_over hsendable
    refine ⟨events ++ .client :: more, ?_⟩
    rw [applyAll_append]
    exact hover

end

/-! ## Whole sessions -/

/-- Client and daemon make any calls in step. Wherever a session stands, its calls can all be brought to an end; when a call returns, or none is being made, both channels are empty and the connection waits for a request; and the results are those of the daemon's calls in turn, on the draws that the calls before them have left. -/
theorem calls_compose (settings : Settings) (shared : Shared) (ids : Nat → String) (orders : Nat → Message.MapOrder) {errands : List Errand}
    (hsendable : ∀ errand ∈ errands, errand.invocation.IsSendable) (events : List SessionEvent) :
    let session := ({ connection := { ids, orders }, shared, errands } : Session).applyAll settings events
    (∃ more, (session.applyAll settings more).isOver = true) ∧
      (session.client.call = none ∨ session.client.result?.isSome = true →
        session.channelsEmpty = true ∧ session.connection.phase = .idle) ∧
      (∃ left, ReturnsAll settings shared.draws (errands.take session.results.length) session.results left ∧
        (session.client.call = none → left = session.shared.draws)) ∧
      (session.isOver = true → session.results.length = errands.length) := by
  have hstart : ({ connection := { ids, orders }, shared, errands } : Session).InStep settings errands shared.draws :=
    .inl ⟨⟨[], rfl, .nil⟩, rfl, rfl, ⟨⟨⟨rfl, nofun⟩, rfl, rfl⟩, rfl⟩, ⟨⟨rfl, nofun⟩, rfl, rfl⟩⟩
  have hsession := hstart.applyAll hsendable events
  generalize ({ connection := { ids, orders }, shared, errands } : Session).applyAll settings events = session at hsession
  intro session'
  refine ⟨hsession.exists_over hsendable, ?_⟩
  rcases hsession with h | ⟨call, standing, h⟩
  · obtain ⟨done, hall, hreturned⟩ := h.returned
    have htake : errands.take session.results.length = done := by rw [hall, List.take_left' hreturned.length_eq.symm]
    refine ⟨fun _ => ⟨h.carries.channelsEmpty, h.phase⟩, ⟨_, by rw [htake]; exact hreturned, fun _ => rfl⟩, fun hover => ?_⟩
    have hnone : session.errands = [] := List.isEmpty_iff.mp (Bool.and_eq_true_iff.mp hover).1
    rw [hreturned.length_eq, hall, hnone, List.append_nil]
  · obtain ⟨done, errand, hall, hreturned, -⟩ := h.returned
    have htake : errands.take session.results.length = done := by rw [hall, List.take_left' hreturned.length_eq.symm]
    have hcalling : session.client.call ≠ none := by
      rw [h.calling]
      exact Option.some_ne_none call
    refine ⟨fun hended => ?_, ⟨standing.before, by rw [htake]; exact hreturned, fun hnone => absurd hnone hcalling⟩, fun hover => ?_⟩
    · have hresult : session.client.result? = call.result? := by rw [Client.result?, h.calling, Option.bind_some]
      obtain ⟨result, hresult'⟩ := Option.isSome_iff_exists.mp (hended.resolve_left hcalling)
      obtain ⟨-, hphase, hcarries⟩ := h.done (hresult.symm.trans hresult')
      exact ⟨hcarries.channelsEmpty, hphase⟩
    · exact absurd (Option.isNone_iff_eq_none.mp (Bool.and_eq_true_iff.mp hover).2) hcalling

/-- A repetition that is refused, and then an exchange of one request. -/
theorem calls_compose_refusal_exchange :
    let errands : List Errand := [{ invocation := .repeated { requestId := "r" } },
      { invocation := .exchange [{ requestId := "a" }], correlation := { requestId := some "x" } }]
    ∃ events error reply responses,
      let session := ({ connection := { ids := toString }, shared := { draws := .cycle [] }, errands } : Session).applyAll { limits := .unbounded } events
      session.results = [.error (.rpc error), .ok reply] ∧ error.status? = some "FAILED_PRECONDITION" ∧
        reply.value = .responses responses ∧ responses.length = 1 ∧ session.channelsEmpty = true := by
  intro errands
  have hsendable : ∀ errand ∈ errands, errand.invocation.IsSendable := by
    simp only [errands, List.forall_mem_cons]
    exact ⟨nofun, List.forall_mem_singleton.mpr nofun, nofun⟩
  obtain ⟨events, hover⟩ := (calls_compose { limits := .unbounded } { draws := .cycle [] } toString (fun _ => .listed) hsendable []).1
  obtain ⟨-, hempty, ⟨left, hreturns, -⟩, hlength⟩ := calls_compose { limits := .unbounded } { draws := .cycle [] } toString (fun _ => .listed) hsendable events
  have hnone := Option.isNone_iff_eq_none.mp (Bool.and_eq_true_iff.mp hover).2
  rw [hlength hover, List.take_length] at hreturns
  dsimp only [errands] at hreturns
  generalize hresults : (Session.applyAll _ _ events).results = results at hreturns
  cases hreturns with
  | cons hfirst hrest =>
    cases hfirst with
    | repeated htimes => exact absurd htimes (by decide)
    | refused _ hstatus =>
      cases hrest with
      | cons hsecond hrest =>
        cases hrest
        cases hsecond with
        | exchange hvalue hcount => exact ⟨events, _, _, _, hresults, hstatus, hvalue, hcount, (hempty (.inl hnone)).1⟩

end Session

end LoadGenerator
