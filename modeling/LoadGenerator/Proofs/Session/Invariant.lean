import LoadGenerator.Proofs.Connection.Transcript
import LoadGenerator.Proofs.Session.Answers

/-!
# What holds throughout a session

Between calls both channels are empty and the connection waits for a request. During a call client and daemon are on courses that fit: what is on its way to the daemon and what the client is still to write are together the lines that the daemon is still to take, and the same in the other direction. Whatever happens next, this stays so.
-/

namespace LoadGenerator

open Message Service Client

/-- The results of calls made one after another, each on the draws that the ones before it have left. -/
inductive ReturnsAll (settings : Settings) : Load.Draws → List Errand → List (Except Failure Client.Reply) → Load.Draws → Prop where
  | nil {draws : Load.Draws} : ReturnsAll settings draws [] [] draws
  | cons {draws between left : Load.Draws} {errand : Errand} {errands : List Errand} {result : Except Failure Client.Reply}
      {results : List (Except Failure Client.Reply)} (hfirst : Returns settings draws errand.invocation result between)
      (hrest : ReturnsAll settings between errands results left) : ReturnsAll settings draws (errand :: errands) (result :: results) left

theorem ReturnsAll.snoc {settings : Settings} {draws between left : Load.Draws} {errands : List Errand}
    {results : List (Except Failure Client.Reply)} (h : ReturnsAll settings draws errands results between) {errand : Errand}
    {result : Except Failure Client.Reply} (hlast : Returns settings between errand.invocation result left) :
    ReturnsAll settings draws (errands ++ [errand]) (results ++ [result]) left := by
  induction h with
  | nil => exact .cons hlast .nil
  | cons hfirst _ ih => exact .cons hfirst (ih hlast)

theorem ReturnsAll.length_eq {settings : Settings} {draws left : Load.Draws} {errands : List Errand}
    {results : List (Except Failure Client.Reply)} (h : ReturnsAll settings draws errands results left) : results.length = errands.length := by
  induction h with
  | nil => rfl
  | cons _ _ ih => rw [List.length_cons, List.length_cons, ih]

/-- A call that has returned has nothing left to write or to take. -/
theorem Client.OpenCall.Course.done {answer : Answer} {allowed : Except Failure Client.Reply → Prop} {call : Client.OpenCall}
    {unsent unseen : List (List Char)} (h : call.Course answer allowed unsent unseen) {result : Except Failure Client.Reply}
    (hresult : call.result? = some result) : unsent = [] ∧ unseen = [] ∧ allowed result := by
  cases h with
  | ended hstage hallowed =>
    rw [Client.OpenCall.result?, hstage] at hresult
    obtain rfl := Option.some.inj hresult
    exact ⟨rfl, rfl, hallowed⟩
  | opening hstage | sending hstage | awaiting hstage | collecting hstage | finishing hstage =>
    rw [Client.OpenCall.result?, hstage] at hresult
    cases hresult

theorem Connection.Course.done {settings : Settings} {conn : Connection} {draws left : Load.Draws} {needs : List (List Char)}
    (h : conn.Course settings draws needs [] left) : needs = [] ∧ left = draws ∧ conn.phase = .idle := by
  generalize hwrites : ([] : List (List Char)) = writes at h
  cases h with
  | before => exact absurd hwrites.symm (List.append_ne_nil_of_right_ne_nil _ (List.cons_ne_nil _ _))
  | during => exact absurd hwrites.symm (List.append_ne_nil_of_right_ne_nil _ (List.cons_ne_nil _ _))
  | after hphase => exact ⟨rfl, rfl, hphase⟩

namespace Session

/-- The lines that are on their way in the two directions; both sides take and write what they can. -/
structure Carries (session : Session) (toDaemon toClient : List (List Char)) : Prop where
  daemon : session.connection.IsOpen session.client.wire.outbox toDaemon.flatten
  client : session.client.wire.IsOpen session.connection.wire.outbox toClient.flatten

/-- A session between two calls, with the errands of the whole session and the draws at its start. -/
structure Rests (settings : Settings) (errands : List Errand) (start : Load.Draws) (session : Session) : Prop where
  returned : ∃ done, errands = done ++ session.errands ∧ ReturnsAll settings start done session.results session.shared.draws
  free : session.client.call = none
  phase : session.connection.phase = .idle
  carries : session.Carries [] []

/-- Where a call of a session stands: the draws before and after it, what the daemon answers, the lines on their way, and those that either side is still to write. -/
structure Standing where
  before : Load.Draws
  left : Load.Draws
  answer : Answer
  toDaemon : List (List Char) := []
  toClient : List (List Char) := []
  unsent : List (List Char)
  writes : List (List Char)

/-- A session during a call. -/
structure Calls (settings : Settings) (errands : List Errand) (start : Load.Draws) (session : Session) (call : Client.OpenCall)
    (standing : Standing) : Prop where
  returned : ∃ done errand, errands = done ++ errand :: session.errands ∧ ReturnsAll settings start done session.results standing.before ∧
    call.invocation = errand.invocation
  calling : session.client.call = some call
  answer : standing.answer.Ends call.invocation fun result => Returns settings standing.before call.invocation result standing.left
  client : call.Course standing.answer (fun result => Returns settings standing.before call.invocation result standing.left) standing.unsent
    (standing.toClient ++ standing.writes)
  daemon : session.connection.Course settings session.shared.draws (standing.toDaemon ++ standing.unsent) standing.writes standing.left
  carries : session.Carries standing.toDaemon standing.toClient

/-- What holds of a session at all times. -/
def InStep (settings : Settings) (errands : List Errand) (start : Load.Draws) (session : Session) : Prop :=
  session.Rests settings errands start ∨ ∃ call standing, session.Calls settings errands start call standing

section

variable {settings : Settings} {errands : List Errand} {start : Load.Draws} {session : Session} {toDaemon toClient : List (List Char)}

/-! ## Bytes on their way -/

theorem Carries.carryToDaemon (h : session.Carries toDaemon toClient) (count : Nat) : (session.carryToDaemon count).Carries toDaemon toClient where
  daemon := by
    have hbytes : session.client.wire.outbox = session.client.wire.outbox.take count ++ session.client.wire.outbox.drop count :=
      (List.take_append_drop count _).symm
    have hdaemon := h.daemon
    rw [hbytes] at hdaemon
    exact hdaemon.deliver
  client := h.client.same rfl rfl rfl

theorem Carries.carryToClient (h : session.Carries toDaemon toClient) (count : Nat) : (session.carryToClient count).Carries toDaemon toClient where
  daemon := h.daemon.same rfl rfl rfl rfl
  client := by
    have hbytes : session.connection.wire.outbox = session.connection.wire.outbox.take count ++ session.connection.wire.outbox.drop count :=
      (List.take_append_drop count _).symm
    have hclient := h.client
    rw [hbytes] at hclient
    exact hclient.deliver

theorem Carries.channelsEmpty (h : session.Carries [] []) : session.channelsEmpty = true := by
  obtain ⟨hinbox, houtbox⟩ := h.daemon.eq_nil
  obtain ⟨hinbox', houtbox'⟩ := h.client.eq_nil
  simp [Session.channelsEmpty, hinbox, houtbox, hinbox', houtbox']

/-! ## Steps during a call -/

section

variable {call : Client.OpenCall} {standing : Standing}

theorem Calls.carryToDaemon (h : session.Calls settings errands start call standing) (count : Nat) :
    (session.carryToDaemon count).Calls settings errands start call standing where
  returned := h.returned
  calling := h.calling
  answer := h.answer
  client := h.client
  daemon := h.daemon.same rfl rfl rfl rfl rfl
  carries := h.carries.carryToDaemon count

theorem Calls.carryToClient (h : session.Calls settings errands start call standing) (count : Nat) :
    (session.carryToClient count).Calls settings errands start call standing where
  returned := h.returned
  calling := h.calling
  answer := h.answer
  client := h.client
  daemon := h.daemon.same rfl rfl rfl rfl rfl
  carries := h.carries.carryToClient count

theorem Calls.watch (h : session.Calls settings errands start call standing) :
    (session.applyConnection settings .watch).Calls settings errands start call standing := by
  obtain ⟨hwire, hshutdown, -⟩ := Connection.watch_frame session.connection
  have hdaemon := h.daemon.watch h.carries.daemon.inputOpen
  refine ⟨h.returned, h.calling, h.answer, h.client, hdaemon, ⟨?_, ?_⟩⟩
  · exact h.carries.daemon.same (congrArg Wire.inbox hwire) (congrArg Wire.inputEnded hwire) (congrArg Wire.room hwire) hshutdown
  · change session.client.wire.IsOpen session.connection.watch.wire.outbox standing.toClient.flatten
    rw [hwire]
    exact h.carries.client

/-- A bound on the steps that are left to client and daemon before the call returns. -/
def rank (session : Session) (standing : Standing) : Nat :=
  session.connection.courseRank (standing.toDaemon ++ standing.unsent) standing.writes + standing.unsent.length +
    (standing.toClient ++ standing.writes).length

/-- The connection goes on, or it has to wait. -/
theorem Calls.stepDaemon (h : session.Calls settings errands start call standing) :
    (session.applyConnection settings .step = session ∧
        (session.client.wire.outbox = [] → standing.toDaemon = [] ∧ (standing.writes.length ≤ standing.unsent.length ∨
          ∃ line ∈ standing.unsent, ∃ request, Connection.Opens line request))) ∨
      ∃ standing', (session.applyConnection settings .step).Calls settings errands start call standing' ∧
        (session.applyConnection settings .step).rank standing' < session.rank standing := by
  rcases h.daemon.step h.carries.daemon with ⟨hstep, hwaits⟩ | hgoes
  · refine .inl ⟨?_, hwaits⟩
    simp only [applyConnection, Connection.apply, hstep]
  · right
    rcases hstep : session.connection.step settings session.shared with ⟨conn, shared⟩
    rw [hstep] at hgoes
    obtain ⟨taken, toDaemon, written, writes, htoDaemon, hwrites, hcourse, hopen, houtbox, hrank⟩ := hgoes
    have hnext : session.applyConnection settings .step = { session with connection := conn, shared } := by
      simp only [applyConnection, Connection.apply, hstep]
    have hlines : standing.toClient ++ standing.writes = (standing.toClient ++ written) ++ writes := by
      rw [hwrites, List.append_assoc]
    rw [hnext]
    refine ⟨{ standing with toDaemon, toClient := standing.toClient ++ written, writes }, ?_, ?_⟩
    · refine ⟨h.returned, h.calling, h.answer, ?_, hcourse, hopen, ?_⟩
      · have hclient := h.client
        rwa [hlines] at hclient
      · change session.client.wire.IsOpen conn.wire.outbox (standing.toClient ++ written).flatten
        rw [houtbox, List.flatten_append]
        exact h.carries.client.append _
    · rw [rank, rank, hlines]
      dsimp only at hrank ⊢
      omega

theorem Calls.stepClient (h : session.Calls settings errands start call standing) (hlive : call.result? = none) :
    (session.stepClient = session ∧
        (session.connection.wire.outbox = [] → standing.toClient = [] ∧ standing.unsent.length < standing.writes.length ∧
          ∀ line ∈ standing.unsent, ¬ ∃ request, Connection.Opens line request)) ∨
      ∃ call' standing', session.stepClient.Calls settings errands start call' standing' ∧
        session.stepClient.rank standing' < session.rank standing := by
  have hresult : session.client.result? = none := by rw [Client.result?, h.calling, Option.bind_some, hlive]
  have hnext : session.stepClient =
      { session with client := { session.client with wire := (call.step session.client.wire).2, call := some (call.step session.client.wire).1 } } := by
    simp only [Session.stepClient, hresult, h.calling, Client.step]
  rcases h.client.step h.answer h.carries.client hlive with ⟨hstep, hwaits⟩ | hgoes
  · refine .inl ⟨?_, hwaits⟩
    rw [hnext, hstep, ← h.calling]
  · right
    rw [hnext]
    obtain ⟨taken, toClient, written, unsent, htoClient, hunsent, hcourse, hopen, houtbox, hinvocation, hrank⟩ := hgoes
    have hlines : standing.toDaemon ++ standing.unsent = (standing.toDaemon ++ written) ++ unsent := by
      rw [hunsent, List.append_assoc]
    refine ⟨(call.step session.client.wire).1, { standing with toDaemon := standing.toDaemon ++ written, toClient, unsent }, ?_, ?_⟩
    · refine ⟨?_, rfl, ?_, ?_, ?_, ?_, hopen⟩
      · rw [hinvocation]
        exact h.returned
      · rw [hinvocation]
        exact h.answer
      · rw [hinvocation]
        exact hcourse
      · have hdaemon := h.daemon
        rwa [hlines] at hdaemon
      · change session.connection.IsOpen (call.step session.client.wire).2.outbox (standing.toDaemon ++ written).flatten
        rw [houtbox, List.flatten_append]
        exact ⟨h.carries.daemon.toIsOpen.append _, h.carries.daemon.live⟩
    · rw [rank, rank, hlines]
      dsimp only at hrank ⊢
      omega

/-- When a call has returned, nothing is left of it in the channels. -/
theorem Calls.done (h : session.Calls settings errands start call standing) {result : Except Failure Client.Reply} (hresult : call.result? = some result) :
    Returns settings standing.before call.invocation result session.shared.draws ∧ session.connection.phase = .idle ∧ session.Carries [] [] := by
  obtain ⟨hunsent, hunseen, hreturns⟩ := h.client.done hresult
  obtain ⟨htoClient, hwrites⟩ := List.append_eq_nil_iff.mp hunseen
  have hdaemon := h.daemon
  rw [hwrites] at hdaemon
  obtain ⟨hneeds, hleft, hphase⟩ := hdaemon.done
  obtain ⟨htoDaemon, -⟩ := List.append_eq_nil_iff.mp hneeds
  have hcarries := h.carries
  rw [htoDaemon, htoClient] at hcarries
  rw [hleft] at hreturns
  exact ⟨hreturns, hphase, hcarries⟩

theorem Calls.note (h : session.Calls settings errands start call standing) {result : Except Failure Client.Reply} (hresult : call.result? = some result) :
    session.stepClient.Rests settings errands start ∧ session.stepClient.errands = session.errands := by
  obtain ⟨hreturns, hphase, hcarries⟩ := h.done hresult
  obtain ⟨done, errand, herrands, hall, hinvocation⟩ := h.returned
  have hclient : session.client.result? = some result := by rw [Client.result?, h.calling, Option.bind_some, hresult]
  have hnext : session.stepClient =
      { session with client := { session.client with call := none }, results := session.results ++ [result] } := by
    simp only [Session.stepClient, hclient]
  rw [hnext]
  rw [hinvocation] at hreturns
  refine ⟨⟨⟨done ++ [errand], ?_, hall.snoc hreturns⟩, rfl, hphase, hcarries.daemon, hcarries.client⟩, rfl⟩
  rw [herrands, List.append_assoc, List.singleton_append]

end

/-! ## Between calls -/

theorem Rests.begin (h : session.Rests settings errands start) {errand : Errand} {rest : List Errand} (herrands : session.errands = errand :: rest)
    (hsendable : errand.invocation.IsSendable) :
    ∃ call standing, session.stepClient.Calls settings errands start call standing ∧ session.stepClient.errands = rest := by
  obtain ⟨done, hall, hreturned⟩ := h.returned
  have hresult : session.client.result? = none := by
    rw [Client.result?, h.free]
    rfl
  have hnext : session.stepClient =
      { session with client := session.client.begin errand.invocation errand.correlation errand.order, errands := rest } := by
    simp only [Session.stepClient, hresult, h.free, herrands]
  rw [hnext]
  let call : Client.OpenCall := { id := .number session.client.nextId, invocation := errand.invocation, correlation := errand.correlation, order := errand.order }
  let daemon := Connection.OpenCall.ofRequest settings call.request.received (session.connection.ids session.connection.idsUsed)
    (session.connection.orders session.connection.callsOpened) (Utf8.size call.request.line)
  have hcall : daemon.call = errand.invocation.opened settings := openCall_of_sendable settings hsendable
  have hstands : daemon.Stands errand.invocation.streamed (errand.invocation.streamLines call.id) :=
    stands_opened hsendable hcall rfl rfl rfl
  have hends := ends_opened hsendable hcall session.shared.draws
  refine ⟨call,
    { before := session.shared.draws
      left := (daemon.prospect settings session.shared.draws errand.invocation.streamed).draws
      answer := ⟨(daemon.prospect settings session.shared.draws errand.invocation.streamed).responses,
        (daemon.response (daemon.prospect settings session.shared.draws errand.invocation.streamed).outcome).line⟩
      unsent := call.request.line :: errand.invocation.streamLines call.id
      writes := daemon.toWrite settings session.shared.draws errand.invocation.streamed }, ?_, rfl⟩
  refine ⟨⟨done, errand, ?_, hreturned, rfl⟩, rfl, hends, ?_, ?_, h.carries.daemon, h.carries.client⟩
  · rw [hall, herrands]
  · exact .opening rfl rfl (Invocation.IsSendable.rates hsendable)
  · exact .before h.phase (isFullLine_lineOf Request.record _) (opens_request hsendable) hstands

theorem Rests.stepClient (h : session.Rests settings errands start) (hsendable : ∀ errand ∈ errands, errand.invocation.IsSendable) :
    session.stepClient.InStep settings errands start := by
  cases herrands : session.errands with
  | nil =>
    have hresult : session.client.result? = none := by
      rw [Client.result?, h.free]
      rfl
    have hstill : session.stepClient = session := by simp only [Session.stepClient, hresult, h.free, herrands]
    rw [hstill]
    exact .inl h
  | cons errand rest =>
    obtain ⟨done, hall, -⟩ := h.returned
    have hnext : errand.invocation.IsSendable := hsendable errand (by rw [hall, herrands]; simp)
    obtain ⟨call, standing, hcalls, -⟩ := h.begin herrands hnext
    exact .inr ⟨call, standing, hcalls⟩

theorem Rests.stepDaemon (h : session.Rests settings errands start) : session.applyConnection settings .step = session := by
  simp only [applyConnection, Connection.apply, Connection.IsOpen.step_idle_nil settings session.shared h.carries.daemon h.phase]

theorem Rests.watch (h : session.Rests settings errands start) : session.applyConnection settings .watch = session := by
  have hwatch : session.connection.watch = session.connection := by rw [Connection.watch, h.phase]
  simp only [applyConnection, Connection.apply, hwatch]

/-! ## Events -/

/-- Whatever happens next, client and daemon stay in step. -/
theorem InStep.apply (h : session.InStep settings errands start) (hsendable : ∀ errand ∈ errands, errand.invocation.IsSendable)
    (event : SessionEvent) : (session.apply settings event).InStep settings errands start := by
  rcases h with h | ⟨call, standing, h⟩
  · cases event with
    | client => exact h.stepClient hsendable
    | daemon =>
      rw [Session.apply, h.stepDaemon]
      exact .inl h
    | watch =>
      rw [Session.apply, h.watch]
      exact .inl h
    | toDaemon count => exact .inl ⟨h.returned, h.free, h.phase, h.carries.carryToDaemon count⟩
    | toClient count => exact .inl ⟨h.returned, h.free, h.phase, h.carries.carryToClient count⟩
  · cases event with
    | client =>
      cases hresult : call.result? with
      | some result => exact .inl (h.note hresult).1
      | none =>
        rcases h.stepClient hresult with ⟨hstill, -⟩ | ⟨call', standing', hnext, -⟩
        · rw [Session.apply, hstill]
          exact .inr ⟨call, standing, h⟩
        · exact .inr ⟨call', standing', hnext⟩
    | daemon =>
      rcases h.stepDaemon with ⟨hstill, -⟩ | ⟨standing', hnext, -⟩
      · rw [Session.apply, hstill]
        exact .inr ⟨call, standing, h⟩
      · exact .inr ⟨call, standing', hnext⟩
    | watch => exact .inr ⟨call, standing, h.watch⟩
    | toDaemon count => exact .inr ⟨call, standing, h.carryToDaemon count⟩
    | toClient count => exact .inr ⟨call, standing, h.carryToClient count⟩

theorem InStep.applyAll (h : session.InStep settings errands start) (hsendable : ∀ errand ∈ errands, errand.invocation.IsSendable)
    (events : List SessionEvent) : (session.applyAll settings events).InStep settings errands start := by
  induction events generalizing session with
  | nil => exact h
  | cons event events ih => exact ih (h.apply hsendable event)

end

end Session

end LoadGenerator
