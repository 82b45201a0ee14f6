import LoadGenerator.Connection.Basic
import LoadGenerator.Proofs.Service.Counts

/-!
# What happens to calls

An event on a connection does at most one thing to a call: it begins one, runs an item of it, answers it or drops it; and a line that opens no call is rejected by itself. Each has its own effect on the gauge, the counts and the log. The response that answers a call shows the code that the call is counted and logged under.
-/

namespace LoadGenerator

open Message Service

inductive Happening where
  | begun (labels : CallLabels)
  /-- A line opens no call and is answered by itself. -/
  | rejected (response : Response)
  /-- A call runs an item. -/
  | ran (request : WorkRequest) (response : WorkResponse)
  /-- A call ends with its response. -/
  | answered (event : CallEvent) (response : Response)
  /-- A call ends without a response. -/
  | dropped (labels : CallLabels)

namespace Happening

def begins (labels : CallLabels) : Happening → Bool
  | begun other => other = labels
  | _ => false

def ends (labels : CallLabels) : Happening → Bool
  | answered event _ => event.labels = labels
  | dropped other => other = labels
  | _ => false

def event? : Happening → Option CallEvent
  | answered event _ => some event
  | _ => none

/-- An item is run whose config has this label. -/
def runs (mode : String) : Happening → Bool
  | ran request _ => modeLabel request.config = mode
  | _ => false

/-- Such an item is run and answered as a success. -/
def succeeds (mode : String) : Happening → Bool
  | ran request response => modeLabel request.config = mode && response.ok
  | _ => false

end Happening

namespace Connection

/-- The log entry of a call that ends with this outcome. -/
def lastEvent (conn : Connection) (call : OpenCall) (outcome : Except Status Reply) : CallEvent :=
  { call with stream := (writeLine (call.response outcome).line (conn.wire, call.stream)).2.2 }.event outcome

/-- What a line between calls brings about. -/
def lineBrings (text : List Char) : Option Happening :=
  if isBlankLine text then none
  else
    match Request.codec.parse (String.ofList text) with
    | .error e => some (.rejected (unreadableResponse e))
    | .ok request =>
      if request.version ≠ protocolVersion then some (.rejected (versionResponse request))
      else some (.begun ⟨callMode request.method request.params, request.method⟩)

/-- What an event brings about on a connection. -/
def happens (settings : Settings) (conn : Connection) (shared : Shared) : ConnectionEvent → Option Happening
  | .step =>
    match conn.phase with
    | .closed _ => none
    | .idle =>
      match conn.shutdown, conn.wire.readLine.1 with
      | false, .line text => lineBrings text
      | _, _ => none
    | .serving call =>
      match call.call.outcome? with
      | some outcome => some (.answered (conn.lastEvent call outcome) (call.response outcome))
      | none =>
        (call.call.nextItem? call.stream.cancelled).map fun (request, _) =>
          .ran request (runItem settings.limits shared request).1
  | .abort =>
    match conn.phase with
    | .serving call => some (.dropped call.labels)
    | _ => none
  | _ => none

/-- The labels of the open call. -/
def openLabels? (conn : Connection) : Option CallLabels :=
  match conn.phase with
  | .serving call => some call.labels
  | _ => none

end Connection

/-! ## Effects -/

/-- What an event on a connection does to its open call and to the books, by what it brings about. -/
inductive Effect (opened : Option CallLabels) (shared : Shared) : Option Happening → Option CallLabels → Shared → Prop where
  | none (after : Shared) (hmetrics : after.metrics = shared.metrics) (hlog : after.log = shared.log) :
      Effect opened shared none opened after
  | rejected (response : Response) (after : Shared) (hmetrics : after.metrics = shared.metrics) (hlog : after.log = shared.log) :
      Effect opened shared (some (.rejected response)) opened after
  | begun (labels : CallLabels) (after : Shared) (hopened : opened = Option.none)
      (hmetrics : after.metrics = shared.metrics.begin labels) (hlog : after.log = shared.log) :
      Effect opened shared (some (.begun labels)) (some labels) after
  | ran (request : WorkRequest) (response : WorkResponse) (outcome : String) (after : Shared)
      (houtcome : outcome = "success" ↔ response.ok = true)
      (hmetrics : after.metrics = shared.metrics.recordRun (modeLabel request.config) outcome) (hlog : after.log = shared.log) :
      Effect opened shared (some (.ran request response)) opened after
  | answered (event : CallEvent) (response : Response) (after : Shared) (hopened : opened = some event.labels)
      (hmetrics : after.metrics = shared.metrics.finish event.labels event.code) (hlog : after.log = shared.log ++ [event]) :
      Effect opened shared (some (.answered event response)) Option.none after
  | dropped (labels : CallLabels) (after : Shared) (hopened : opened = some labels)
      (hmetrics : after.metrics = shared.metrics.release labels) (hlog : after.log = shared.log) :
      Effect opened shared (some (.dropped labels)) Option.none after

namespace Connection

variable (settings : Settings) (conn : Connection) (shared : Shared)

theorem openLabels?_of_idle {conn : Connection} (hphase : conn.phase = .idle) : conn.openLabels? = none := by
  rw [openLabels?, hphase]

theorem openLabels?_of_serving {conn : Connection} {call : OpenCall} (hphase : conn.phase = .serving call) :
    conn.openLabels? = some call.labels := by
  rw [openLabels?, hphase]

theorem openLabels?_of_afterWrite {conn : Connection} {written : Bool} (hphase : conn.phase = afterWrite written) :
    conn.openLabels? = none := by
  rw [openLabels?, hphase]
  cases written <;> rfl

theorem effect_takeLine (hphase : conn.phase = .idle) (text : List Char) :
    Effect none shared (lineBrings text) (takeLine settings conn shared text).1.openLabels?
      (takeLine settings conn shared text).2 := by
  have hrejected (response : Response) : (conn.reject response).openLabels? = none := openLabels?_of_afterWrite rfl
  unfold lineBrings takeLine
  split_ifs with hblank
  · rw [openLabels?_of_idle hphase]
    exact .none _ rfl rfl
  · cases Request.codec.parse (String.ofList text) with
    | error e =>
      dsimp only
      rw [hrejected]
      exact .rejected _ _ rfl rfl
    | ok request =>
      dsimp only
      split_ifs
      · rw [hrejected]
        exact .rejected _ _ rfl rfl
      · exact .begun _ _ rfl rfl rfl

theorem effect_stepIdle (hphase : conn.phase = .idle) :
    Effect none shared (conn.happens settings shared .step) (conn.stepIdle settings shared).1.openLabels?
      (conn.stepIdle settings shared).2 := by
  cases hshutdown : conn.shutdown with
  | true =>
    simp only [happens, stepIdle, hphase, hshutdown, if_true]
    exact .none _ rfl rfl
  | false =>
    rcases hread : conn.wire.readLine with ⟨read, wire⟩
    cases read with
    | line text =>
      have hstep : conn.stepIdle settings shared = takeLine settings { conn with wire } shared text := by
        rw [stepIdle, hread, if_neg (by simp [hshutdown])]
      simp only [happens, hphase, hshutdown, hread]
      rw [hstep]
      exact effect_takeLine settings { conn with wire } shared hphase text
    | waiting =>
      simp only [happens, stepIdle, hphase, hshutdown, hread]
      rw [if_neg Bool.false_ne_true, openLabels?_of_idle hphase]
      exact .none _ rfl rfl
    | _ =>
      simp only [happens, stepIdle, hphase, hshutdown, hread]
      exact .none _ rfl rfl

theorem effect_stepCall {call : OpenCall} (hphase : conn.phase = .serving call) :
    Effect (some call.labels) shared (conn.happens settings shared .step)
      (conn.stepCall settings shared call).1.openLabels? (conn.stepCall settings shared call).2 := by
  unfold happens stepCall
  simp only [hphase]
  cases houtcome : call.call.outcome? with
  | some outcome =>
    rw [show (conn.closeCall shared call outcome).1.openLabels? = none from openLabels?_of_afterWrite rfl]
    exact .answered _ _ _ rfl rfl rfl
  | none =>
    have hshared := Call.shared_step peer settings.limits call.call shared (conn.wire, call.stream)
    dsimp only
    rw [hshared]
    change Effect _ shared ((call.call.nextItem? call.stream.cancelled).map _) (some call.labels)
      ((call.call.nextItem? call.stream.cancelled).elim shared fun item => (runItem settings.limits shared item.1).2)
    cases call.call.nextItem? call.stream.cancelled with
    | none => exact .none _ rfl rfl
    | some item =>
      obtain ⟨outcome, houtcome, hmetrics, hlog⟩ := runItem_books settings.limits shared item.1
      exact .ran item.1 _ outcome _ houtcome hmetrics hlog

theorem openLabels?_cancelCall : conn.cancelCall.openLabels? = conn.openLabels? := by
  cases hphase : conn.phase <;> simp only [cancelCall, openLabels?, hphase]

theorem openLabels?_watch : conn.watch.openLabels? = conn.openLabels? := by
  unfold watch
  cases hphase : conn.phase with
  | serving call =>
    dsimp only
    split_ifs
    · rfl
    · rw [openLabels?_cancelCall, openLabels?_of_serving hphase, openLabels?_of_serving rfl]
    · rfl
    · rw [openLabels?_of_serving hphase, openLabels?_of_serving rfl]
  | _ => rfl

theorem effect_apply (event : ConnectionEvent) :
    Effect conn.openLabels? shared (conn.happens settings shared event) (conn.apply settings shared event).1.openLabels?
      (conn.apply settings shared event).2 := by
  cases event with
  | deliver bytes => exact .none _ rfl rfl
  | hangUp => exact .none _ rfl rfl
  | shutdown =>
    rw [show (conn.apply settings shared .shutdown).1.openLabels? = conn.openLabels? from
      openLabels?_cancelCall { conn with shutdown := true }]
    exact .none _ rfl rfl
  | watch =>
    rw [show (conn.apply settings shared .watch).1.openLabels? = conn.openLabels? from openLabels?_watch conn]
    exact .none _ rfl rfl
  | step =>
    unfold Connection.apply step
    cases hphase : conn.phase with
    | idle =>
      rw [openLabels?_of_idle hphase]
      exact effect_stepIdle settings conn shared hphase
    | serving call =>
      rw [openLabels?_of_serving hphase]
      exact effect_stepCall settings conn shared hphase
    | closed failure =>
      simp only [happens, hphase]
      exact .none _ rfl rfl
  | abort =>
    unfold Connection.apply abort happens
    cases hphase : conn.phase with
    | idle =>
      rw [openLabels?_of_idle hphase]
      exact .none _ rfl rfl
    | serving call => exact .dropped _ _ (openLabels?_of_serving hphase) rfl rfl
    | closed failure => exact .none _ rfl rfl

end Connection

namespace Effect

variable {opened opened' : Option CallLabels} {shared after : Shared} {happening : Option Happening}

/-- A call is open from its beginning to its end. -/
theorem opened_eq (h : Effect opened shared happening opened' after) (labels : CallLabels) :
    opened'.toList.count labels + happening.toList.countP (·.ends labels) =
      opened.toList.count labels + happening.toList.countP (·.begins labels) := by
  cases h with
  | none => rfl
  | rejected => simp [Happening.begins, Happening.ends]
  | begun other _ hopened => simp [hopened, Happening.begins, Happening.ends, List.count_singleton]
  | ran => simp [Happening.begins, Happening.ends]
  | answered event _ _ hopened => simp [hopened, Happening.begins, Happening.ends, List.count_singleton]
  | dropped other _ hopened => simp [hopened, Happening.begins, Happening.ends, List.count_singleton]

/-- The gauge follows the calls that are open. -/
theorem inFlight_eq (h : Effect opened shared happening opened' after) (labels : CallLabels) :
    after.metrics.inFlight.count labels - opened'.toList.count labels =
      shared.metrics.inFlight.count labels - opened.toList.count labels := by
  cases h with
  | none _ hmetrics => rw [hmetrics]
  | rejected _ _ hmetrics => rw [hmetrics]
  | ran _ _ _ _ houtcome hmetrics => rw [hmetrics, Metrics.recordRun]
  | begun other _ hopened hmetrics =>
    rw [hmetrics, hopened, Metrics.begin, Tally.count_add]
    by_cases hother : other = labels <;> simp [hother]
  | answered event _ _ hopened hmetrics =>
    rw [hmetrics, hopened, Metrics.finish, Metrics.release, Tally.count_add]
    by_cases hother : event.labels = labels <;> simp [hother, Int.sub_eq_add_neg]
  | dropped other _ hopened hmetrics =>
    rw [hmetrics, hopened, Metrics.release, Tally.count_add]
    by_cases hother : other = labels <;> simp [hother, Int.sub_eq_add_neg]

/-- Only a call that is answered is counted, timed and logged. -/
theorem finish_cases (h : Effect opened shared happening opened' after) :
    (∃ event response, happening = some (.answered event response) ∧ after.log = shared.log ++ [event] ∧
        after.metrics.requests = Tally.add event.finishLabels 1 shared.metrics.requests ∧
        after.metrics.latencies = Tally.add event.finishLabels 1 shared.metrics.latencies) ∨
      happening.toList.filterMap Happening.event? = [] ∧ after.log = shared.log ∧
        after.metrics.requests = shared.metrics.requests ∧ after.metrics.latencies = shared.metrics.latencies := by
  cases h with
  | answered event response _ hopened hmetrics hlog => exact .inl ⟨event, response, rfl, hlog, by rw [hmetrics]; rfl, by rw [hmetrics]; rfl⟩
  | none _ hmetrics hlog => exact .inr ⟨rfl, hlog, by rw [hmetrics], by rw [hmetrics]⟩
  | rejected _ _ hmetrics hlog => exact .inr ⟨rfl, hlog, by rw [hmetrics], by rw [hmetrics]⟩
  | begun _ _ hopened hmetrics hlog => exact .inr ⟨rfl, hlog, by rw [hmetrics]; rfl, by rw [hmetrics]; rfl⟩
  | ran _ _ _ _ houtcome hmetrics hlog => exact .inr ⟨rfl, hlog, by rw [hmetrics]; rfl, by rw [hmetrics]; rfl⟩
  | dropped _ _ hopened hmetrics hlog => exact .inr ⟨rfl, hlog, by rw [hmetrics]; rfl, by rw [hmetrics]; rfl⟩

/-- Only an item that is run is counted as a run. -/
theorem runs_cases (h : Effect opened shared happening opened' after) :
    (∃ request response outcome, happening = some (.ran request response) ∧ (outcome = "success" ↔ response.ok = true) ∧
        after.metrics.runs = Tally.add ⟨modeLabel request.config, outcome⟩ 1 shared.metrics.runs) ∨
      (∀ mode, happening.toList.countP (·.runs mode) = 0 ∧ happening.toList.countP (·.succeeds mode) = 0) ∧
        after.metrics.runs = shared.metrics.runs := by
  cases h with
  | ran request response outcome _ houtcome hmetrics => exact .inl ⟨request, response, outcome, rfl, houtcome, by rw [hmetrics]; rfl⟩
  | none _ hmetrics => exact .inr ⟨fun _ => ⟨rfl, rfl⟩, by rw [hmetrics]⟩
  | rejected _ _ hmetrics => exact .inr ⟨fun _ => ⟨rfl, rfl⟩, by rw [hmetrics]⟩
  | begun _ _ hopened hmetrics => exact .inr ⟨fun _ => ⟨rfl, rfl⟩, by rw [hmetrics]; rfl⟩
  | answered _ _ _ hopened hmetrics => exact .inr ⟨fun _ => ⟨rfl, rfl⟩, by rw [hmetrics]; rfl⟩
  | dropped _ _ hopened hmetrics => exact .inr ⟨fun _ => ⟨rfl, rfl⟩, by rw [hmetrics]; rfl⟩

theorem runs_eq (h : Effect opened shared happening opened' after) (mode : String) :
    after.metrics.runs.total (·.mode = mode) = shared.metrics.runs.total (·.mode = mode) + happening.toList.countP (·.runs mode) := by
  obtain ⟨request, response, outcome, rfl, -, hruns⟩ | ⟨hnone, hruns⟩ := h.runs_cases
  · rw [hruns, Tally.total_add]
    by_cases hmode : modeLabel request.config = mode <;> simp [hmode, Happening.runs]
  · rw [hruns, (hnone mode).1, Nat.cast_zero, Int.add_zero]

theorem successes_eq (h : Effect opened shared happening opened' after) (mode : String) :
    after.metrics.runs.count ⟨mode, "success"⟩ =
      shared.metrics.runs.count ⟨mode, "success"⟩ + happening.toList.countP (·.succeeds mode) := by
  obtain ⟨request, response, outcome, rfl, houtcome, hruns⟩ | ⟨hnone, hruns⟩ := h.runs_cases
  · rw [hruns, Tally.count_add]
    by_cases hmode : modeLabel request.config = mode <;> by_cases hok : response.ok = true <;>
      simp [hmode, hok, houtcome, Happening.succeeds]
  · rw [hruns, (hnone mode).2, Nat.cast_zero, Int.add_zero]

end Effect

/-! ## Codes that tell the truth -/

namespace Connection

/-- The failure of an open call is not named as a success. -/
def IsTruthful (conn : Connection) : Prop :=
  ∀ call status, conn.phase = .serving call → call.call.outcome? = some (.error status) → status.code ≠ .ok

theorem code_toStatus (fault : StreamFault) : fault.toStatus.code ≠ .ok := by
  cases fault <;> simp [StreamFault.toStatus]

theorem code_receive {s : Wire × CallStream} {status : Status} (h : (receive s).1 = some (.error status)) : status.code ≠ .ok := by
  unfold receive at h
  split_ifs at h
  · cases h
  · rcases hread : s.1.nextLine with ⟨read, size, wire⟩
    rw [hread] at h
    cases read with
    | waiting => cases h
    | ended => cases h
    | malformed fault =>
      cases h
      exact code_toStatus _
    | line text =>
      dsimp only at h
      split at h <;> cases h
      exact code_toStatus _

theorem code_send {s : Wire × CallStream} {response : WorkResponse} {status : Status}
    (h : (send s response).1 = .error status) : status.code ≠ .ok := by
  unfold send at h
  split at h <;> cases h
  exact code_toStatus _

variable {settings : Settings} {conn : Connection} {shared : Shared}

theorem IsTruthful.of_phase {next : Connection} (h : ∀ call, next.phase ≠ .serving call) : next.IsTruthful :=
  fun call _ hphase => absurd hphase (h call)

theorem IsTruthful.of_call {call : OpenCall} (h : conn.IsTruthful) (hphase : conn.phase = .serving call) {next : Connection}
    {call' : OpenCall} (hnext : next.phase = .serving call') (hcall : call'.call = call.call) : next.IsTruthful := by
  intro other status hother houtcome
  obtain rfl := Phase.serving.inj (hnext.symm.trans hother)
  exact h call status hphase (hcall ▸ houtcome)

theorem isTruthful_of_afterWrite {next : Connection} {written : Bool} (hphase : next.phase = afterWrite written) :
    next.IsTruthful := by
  refine .of_phase fun call hcall => ?_
  rw [hphase] at hcall
  cases written <;> cases hcall

theorem IsTruthful.cancelCall (h : conn.IsTruthful) : conn.cancelCall.IsTruthful := by
  unfold Connection.cancelCall
  cases hphase : conn.phase with
  | serving call => exact h.of_call hphase rfl rfl
  | _ => exact h

theorem IsTruthful.watch (h : conn.IsTruthful) : conn.watch.IsTruthful := by
  unfold Connection.watch
  cases hphase : conn.phase with
  | serving call =>
    have hunwatched : IsTruthful { conn with phase := .serving { call with watching := false } } := h.of_call hphase rfl rfl
    dsimp only
    split_ifs
    · exact h
    · exact hunwatched.cancelCall
    · exact h
    · exact hunwatched
  | _ => exact h

theorem isTruthful_takeLine (settings : Settings) (conn : Connection) (shared : Shared) (hphase : conn.phase = .idle) (text : List Char) :
    (takeLine settings conn shared text).1.IsTruthful := by
  unfold takeLine
  split_ifs
  · exact .of_phase (by simp [hphase])
  · cases Request.codec.parse (String.ofList text) with
    | error e => exact isTruthful_of_afterWrite rfl
    | ok request =>
      dsimp only
      split_ifs
      · exact isTruthful_of_afterWrite rfl
      · intro call status hcall houtcome
        obtain rfl := Phase.serving.inj hcall
        exact code_openCall _ _ _ houtcome

theorem isTruthful_stepIdle (settings : Settings) (shared : Shared) (hphase : conn.phase = .idle) :
    (conn.stepIdle settings shared).1.IsTruthful := by
  unfold stepIdle
  split_ifs
  · exact .of_phase (by simp)
  · rcases conn.wire.readLine with ⟨read, wire⟩
    cases read with
    | line text => exact isTruthful_takeLine settings { conn with wire } shared hphase text
    | waiting => exact .of_phase (by simp [hphase])
    | _ => exact .of_phase (by simp)

theorem IsTruthful.stepCall (h : conn.IsTruthful) {call : OpenCall} (hphase : conn.phase = .serving call) :
    (conn.stepCall settings shared call).1.IsTruthful := by
  unfold Connection.stepCall
  cases houtcome : call.call.outcome? with
  | some outcome => exact isTruthful_of_afterWrite rfl
  | none =>
    intro next status hnext hfailed
    obtain rfl := Phase.serving.inj hnext
    obtain hbefore | (rfl | ⟨s, hreceive⟩) | ⟨s, response, hsend⟩ := Call.error_step hfailed
    · exact h call status hphase hbefore
    · simp [Status.callCancelled]
    · exact code_receive hreceive
    · exact code_send hsend

theorem IsTruthful.apply (h : conn.IsTruthful) (event : ConnectionEvent) : (conn.apply settings shared event).1.IsTruthful := by
  cases event with
  | deliver bytes => exact h
  | hangUp => exact h
  | shutdown =>
    have hmarked : IsTruthful { conn with shutdown := true } := h
    exact hmarked.cancelCall
  | watch => exact h.watch
  | step =>
    unfold Connection.apply step
    cases hphase : conn.phase with
    | idle => exact isTruthful_stepIdle settings shared hphase
    | serving call => exact h.stepCall hphase
    | closed failure => exact h
  | abort =>
    unfold Connection.apply abort
    cases hphase : conn.phase with
    | closed failure => exact h
    | _ => exact .of_phase (by simp)

end Connection

/-- The response that ends a call shows the code that the call is counted and logged under. -/
structure Agrees (event : CallEvent) (response : Response) : Prop where
  result_iff : response.result.isSome = true ↔ event.code = .ok
  error_iff : response.error.isSome = true ↔ event.code ≠ .ok
  status_eq : event.code ≠ .ok → response.error.bind RpcError.status? = some event.code.name

theorem agrees_response {conn : Connection} (h : conn.IsTruthful) {call : Connection.OpenCall} (hphase : conn.phase = .serving call)
    {outcome : Except Status Reply} (houtcome : call.call.outcome? = some outcome) :
    Agrees (conn.lastEvent call outcome) (call.response outcome) := by
  cases outcome with
  | ok reply => exact ⟨iff_of_true rfl rfl, iff_of_false Bool.false_ne_true (absurd rfl), absurd rfl⟩
  | error status =>
    have hcode := h call status hphase houtcome
    exact ⟨iff_of_false Bool.false_ne_true hcode, iff_of_true rfl hcode, fun _ => rfl⟩

theorem Connection.happens_answered {settings : Settings} {conn : Connection} {shared : Shared} (h : conn.IsTruthful)
    {happened : ConnectionEvent} {event : CallEvent} {response : Response}
    (hhappens : conn.happens settings shared happened = some (.answered event response)) : Agrees event response := by
  unfold happens at hhappens
  cases happened with
  | step =>
    dsimp only at hhappens
    cases hphase : conn.phase with
    | closed failure => simp [hphase] at hhappens
    | idle =>
      simp only [hphase] at hhappens
      split at hhappens
      · unfold lineBrings at hhappens
        split_ifs at hhappens
        split at hhappens
        · cases hhappens
        · split_ifs at hhappens <;> cases hhappens
      · cases hhappens
    | serving call =>
      simp only [hphase] at hhappens
      cases houtcome : call.call.outcome? with
      | some outcome =>
        rw [houtcome] at hhappens
        cases hhappens
        exact agrees_response h hphase houtcome
      | none =>
        rw [houtcome] at hhappens
        cases hnext : call.call.nextItem? call.stream.cancelled <;> simp [hnext] at hhappens
  | abort =>
    cases hphase : conn.phase <;> simp [hphase] at hhappens
  | _ => cases hhappens

end LoadGenerator
