import LoadGenerator.Proofs.Connection.Account
import LoadGenerator.Proofs.Connection.Happenings
import LoadGenerator.Proofs.Json.Yields
import LoadGenerator.Proofs.Message.Lines

/-!
# Labels of calls and of their runs

The mode under which a call is tracked is looked up by its key in the parameters of the request; the mode under which its runs are counted is the one of the config that the parameters decode to. The two agree for every object. A list has no keys, so a call with its parameters in a list is tracked as one of no particular mode, while its runs are counted under the mode of its config.
-/

namespace LoadGenerator

open Message Service JsonReader

/-! ## Parameters that were read -/

namespace Message

theorem Request.ordered_params {text : String} {request : Request} (h : Request.codec.parse text = .ok request) :
    request.params.IsOrdered := by
  have hkeeps : RecordType.Keeps Request.record.members fun request => request.params.IsOrdered := by
    intro member hmember depth a ha
    simp only [Request.record, List.mem_cons, List.not_mem_nil, or_false] at hmember
    rcases hmember with rfl | rfl | rfl | rfl | rfl
    · exact RecordMember.yields_of fun _ _ _ _ => ha
    · exact RecordMember.yields_of fun _ _ _ _ => ha
    · exact RecordMember.yields_of fun _ _ _ _ => ha
    · exact RecordMember.yields_of (yields_value depth)
    · exact RecordMember.yields_of fun _ _ _ _ => ha
  exact RecordType.kind_of_parse hkeeps trivial h

end Message

/-- The value is a list. -/
def Json.isArray : Json → Bool
  | .array _ => true
  | _ => false

namespace Service

variable {α : Type} {params : Json} {config : Option WorkConfig}

theorem config_of_option {value : Json} (h : WorkConfig.codec.option.decode value = .ok config) :
    (WorkConfig.codec.ofJson value).toOption = config := by
  cases value with
  | null =>
    obtain rfl := Except.ok.inj h
    rfl
  | _ =>
    simp only [JsonCodec.option] at h
    unfold JsonCodec.ofJson
    revert h
    generalize WorkConfig.codec.decode _ = decoded
    intro h
    cases decoded with
    | error problem => cases h
    | ok found =>
      obtain rfl := Except.ok.inj h
      rfl

theorem decode_of_decodeParams {codec : JsonCodec α} {a : α} (h : decodeParams codec params = .ok a) :
    codec.decode (if params.isNull then .object [] else params) = .ok a := by
  unfold decodeParams JsonCodec.ofJson at h
  generalize codec.decode (if params.isNull then .object [] else params) = decoded at h ⊢
  cases decoded with
  | error problem => cases h
  | ok found =>
    obtain rfl := Except.ok.inj h
    rfl

/-- Where the parameters are decoded and are no list, the config is the one that stands under its key. -/
theorem config_of_params {record : RecordType α} {part : α → Option WorkConfig}
    (hown : ∃ member, record.member? "config" = some member ∧
      ∀ value a a', member.decode value a = .ok a' → WorkConfig.codec.option.decode value = .ok (part a'))
    (hothers : ∀ member ∈ record.members, member.name ≠ "config" → ∀ value a a', member.decode value a = .ok a' → part a' = part a)
    (hblank : part record.blank = none) (hordered : params.IsOrdered) (hobject : params.isArray = false) {a : α}
    (h : decodeParams record.codec params = .ok a) :
    ((params.get? "config").bind fun config => (WorkConfig.codec.ofJson config).toOption) = part a := by
  have hdecode : record.decode (if params.isNull then .object [] else params) = .ok a := decode_of_decodeParams h
  cases params with
  | null =>
    have hempty : Json.Increasing ([] : List (String × Json)) := .nil
    have hpart := RecordType.part_of_decodeObject hown hothers hempty hdecode
    exact (hpart.trans hblank).symm
  | object members =>
    have hpart := RecordType.part_of_decodeObject hown hothers hordered hdecode
    change ((members.lookup "config").bind _) = _
    cases hlookup : members.lookup "config" with
    | none =>
      rw [hlookup] at hpart
      exact (Eq.trans hpart hblank).symm
    | some value =>
      rw [hlookup] at hpart
      exact config_of_option hpart
  | array items => cases hobject
  | bool _ => cases hdecode
  | number _ => cases hdecode
  | string _ => cases hdecode

theorem config_of_workRequest (hordered : params.IsOrdered) (hobject : params.isArray = false) {work : WorkRequest}
    (h : decodeParams WorkRequest.codec params = .ok work) :
    ((params.get? "config").bind fun config => (WorkConfig.codec.ofJson config).toOption) = work.config := by
  refine @config_of_params _ params WorkRequest.record _ ⟨_, rfl, ?_⟩ ?_ rfl hordered hobject _ h
  · intro value a a' hdecode
    obtain ⟨b, hb, rfl⟩ := RecordMember.exists_of_decode hdecode
    exact hb
  · intro member hmember hname value a a' hdecode
    simp only [WorkRequest.record, List.mem_cons, List.not_mem_nil, or_false] at hmember
    rcases hmember with rfl | rfl
    · obtain ⟨b, -, rfl⟩ := RecordMember.exists_of_decode hdecode
      rfl
    · exact absurd rfl hname

theorem config_of_repeatRequest (hordered : params.IsOrdered) (hobject : params.isArray = false) {work : RepeatRequest}
    (h : decodeParams RepeatRequest.codec params = .ok work) :
    ((params.get? "config").bind fun config => (WorkConfig.codec.ofJson config).toOption) = work.config := by
  refine @config_of_params _ params RepeatRequest.record _ ⟨_, rfl, ?_⟩ ?_ rfl hordered hobject _ h
  · intro value a a' hdecode
    obtain ⟨b, hb, rfl⟩ := RecordMember.exists_of_decode hdecode
    exact hb
  · intro member hmember hname value a a' hdecode
    simp only [RepeatRequest.record, List.mem_cons, List.not_mem_nil, or_false] at hmember
    rcases hmember with rfl | rfl | rfl
    · obtain ⟨b, -, rfl⟩ := RecordMember.exists_of_decode hdecode
      rfl
    · exact absurd rfl hname
    · obtain ⟨b, -, rfl⟩ := RecordMember.exists_of_decode hdecode
      rfl

/-! ## Calls with a config -/

/-- The request asks for runs of this config, once or several times. -/
inductive Asks (request : Request) : Option WorkConfig → Prop where
  | once (work : WorkRequest) (hmethod : request.method = workMethod)
      (hparams : decodeParams WorkRequest.codec request.params = .ok work) : Asks request work.config
  | repeatedly (work : RepeatRequest) (hmethod : request.method = repeatMethod)
      (hparams : decodeParams RepeatRequest.codec request.params = .ok work) : Asks request work.config

/-- The mode of a call is the one of its config, unless its parameters are a list. -/
theorem Asks.callMode_eq {request : Request} (h : Asks request config) (hordered : request.params.IsOrdered) :
    callMode request.method request.params = if request.params.isArray then WireMode.unspecified.name else modeLabel config := by
  have hmethod : request.method = workMethod ∨ request.method = repeatMethod := by
    cases h with
    | once _ hmethod => exact .inl hmethod
    | repeatedly _ hmethod => exact .inr hmethod
  rw [callMode, if_pos hmethod]
  cases hlist : request.params.isArray with
  | true =>
    rw [if_pos rfl]
    cases hparams : request.params with
    | array items => rfl
    | _ => simp [hparams, Json.isArray] at hlist
  | false =>
    rw [if_neg Bool.false_ne_true]
    cases h with
    | once work _ hparams => rw [config_of_workRequest hordered hlist hparams]
    | repeatedly work _ hparams => rw [config_of_repeatRequest hordered hlist hparams]

/-- A call of one run or of the repeating shape, all of whose runs have this config. -/
inductive Call.Carries (config : Option WorkConfig) : Call → Prop where
  | unary (request : WorkRequest) (hconfig : request.config = config) : Carries config ⟨.unary, .running request⟩
  | unaryEnded (outcome : Except Status Reply) : Carries config ⟨.unary, .ended outcome⟩
  | repeated (item : WorkRequest) (left : Nat) (stage : CallStage) (hconfig : item.config = config)
      (hstage : ∀ request, stage ≠ .running request) : Carries config ⟨.repeated item left, stage⟩

theorem Asks.carries {request : Request} (h : Asks request config) (settings : Settings) :
    (openCall settings request.method request.params).Carries config := by
  cases h with
  | once work hmethod hparams =>
    rw [hmethod, show openCall settings workMethod request.params = openWith WorkRequest.codec request.params Call.unary from rfl,
      openWith, hparams]
    exact .unary work rfl
  | repeatedly work hmethod hparams =>
    rw [hmethod, show openCall settings repeatMethod request.params = openWith RepeatRequest.codec request.params Call.repeated from rfl,
      openWith, hparams]
    dsimp only [Call.repeated]
    split_ifs
    · exact .repeated _ 0 _ rfl (by simp)
    · exact .repeated _ _ _ rfl (by simp)

theorem Call.Carries.nextItem {call : Call} (h : call.Carries config) {cancelled : Bool} {item : WorkRequest × Shape}
    (hnext : call.nextItem? cancelled = some item) : item.1.config = config := by
  cases h with
  | unary request hconfig =>
    obtain rfl := Option.some.inj hnext
    exact hconfig
  | unaryEnded outcome => cases hnext
  | repeated request left stage hconfig hstage =>
    cases stage with
    | running other => exact absurd rfl (hstage other)
    | head =>
      cases left with
      | zero => cases hnext
      | succ left =>
        simp only [Call.nextItem?] at hnext
        split_ifs at hnext
        obtain rfl := Option.some.inj hnext
        exact hconfig
    | _ => cases hnext

theorem Call.Carries.step {σ : Type} {call : Call} (h : call.Carries config) (peer : Peer σ) (limits : Load.Limits) (shared : Shared)
    (s : σ) : (call.step peer limits shared s).2.1.Carries config := by
  cases h with
  | unary request hconfig => exact .unaryEnded _
  | unaryEnded outcome => exact .unaryEnded _
  | repeated item left stage hconfig hstage =>
    cases stage with
    | running other => exact absurd rfl (hstage other)
    | ended outcome => exact .repeated item left _ hconfig (by simp)
    | sending response =>
      simp only [Call.step]
      rcases peer.send s response with ⟨_ | _, s'⟩
      · exact .repeated item left _ hconfig (by simp)
      · exact .repeated item left _ hconfig (by simp)
    | head =>
      cases left with
      | zero => exact .repeated item 0 _ hconfig (by simp)
      | succ left =>
        simp only [Call.step]
        rcases peer.cancelled s with ⟨_ | _, s'⟩
        · exact .repeated item left _ hconfig (by simp)
        · exact .repeated item (left + 1) _ hconfig (by simp)

end Service

/-! ## What the books say of a call -/

namespace Connection

variable {settings : Settings} {conn : Connection} {labels : CallLabels} {config : Option WorkConfig}

/-- The call that is open at first still is, whatever has happened on the connection and whatever others have done to the books meanwhile. -/
inductive Lasts (settings : Settings) (conn : Connection) : Connection → Prop where
  | refl : Lasts settings conn conn
  | after (next : Connection) (shared : Shared) (event : ConnectionEvent) (h : Lasts settings conn next)
      (hopen : (next.apply settings shared event).1.openLabels?.isSome = true) : Lasts settings conn (next.apply settings shared event).1

/-- What one event enters into the books for a call with these labels, whose runs are counted under this mode. -/
inductive Enters (labels : CallLabels) (mode : String) (shared after : Shared) : Prop where
  | nothing (hmetrics : after.metrics = shared.metrics) (hlog : after.log = shared.log)
  | run (outcome : String) (hmetrics : after.metrics = shared.metrics.recordRun mode outcome) (hlog : after.log = shared.log)
  | finished (event : CallEvent) (hlabels : event.labels = labels) (hmetrics : after.metrics = shared.metrics.finish labels event.code)
      (hlog : after.log = shared.log ++ [event])
  | dropped (hmetrics : after.metrics = shared.metrics.release labels) (hlog : after.log = shared.log)

/-- A call that an event leaves open has taken a step of its own, or none. -/
theorem exists_open_apply {call : OpenCall} (hphase : conn.phase = .serving call) (shared : Shared) (event : ConnectionEvent)
    (hopen : (conn.apply settings shared event).1.openLabels?.isSome = true) :
    ∃ next, (conn.apply settings shared event).1.phase = .serving next ∧ next.labels = call.labels ∧
      (next.call = call.call ∧ next.stream.bytesIn = call.stream.bytesIn ∨
        ∃ act after wire, call.call.step peer settings.limits shared (conn.wire, call.stream) = (act, next.call, after, wire, next.stream)) := by
  have hcancelled {conn : Connection} {call : OpenCall} (hphase : conn.phase = .serving call) :
      conn.cancelCall.phase = .serving { call with stream := { call.stream with cancelled := true } } := by
    rw [Connection.cancelCall, hphase]
  cases event with
  | deliver bytes => exact ⟨call, hphase, rfl, .inl ⟨rfl, rfl⟩⟩
  | hangUp => exact ⟨call, hphase, rfl, .inl ⟨rfl, rfl⟩⟩
  | shutdown =>
    have hshut : ({ conn with shutdown := true } : Connection).phase = .serving call := hphase
    exact ⟨_, hcancelled hshut, rfl, .inl ⟨rfl, rfl⟩⟩
  | watch =>
    have hwatched := conn.watched
    rw [show (conn.apply settings shared .watch).1 = conn.watch from rfl]
    generalize conn.watch = next at hwatched
    cases hwatched with
    | still => exact ⟨call, hphase, rfl, .inl ⟨rfl, rfl⟩⟩
    | stops other hother =>
      obtain rfl := Phase.serving.inj (hother.symm.trans hphase)
      exact ⟨_, rfl, rfl, .inl ⟨rfl, rfl⟩⟩
    | hears other hother =>
      obtain rfl := Phase.serving.inj (hother.symm.trans hphase)
      exact ⟨_, hcancelled rfl, rfl, .inl ⟨rfl, rfl⟩⟩
  | step =>
    simp only [Connection.apply, step, hphase, stepCall] at hopen ⊢
    cases houtcome : call.call.outcome? with
    | some outcome =>
      rw [houtcome] at hopen
      dsimp only at hopen
      rw [show (conn.closeCall shared call outcome).1.openLabels? = none from openLabels?_of_afterWrite rfl] at hopen
      cases hopen
    | none => exact ⟨_, rfl, rfl, .inr ⟨_, _, _, rfl⟩⟩
  | abort =>
    simp only [Connection.apply, abort, hphase] at hopen
    cases hopen

/-- The open call has these labels, and its runs have this config. -/
def Tracks (conn : Connection) (labels : CallLabels) (config : Option WorkConfig) : Prop :=
  ∃ call, conn.phase = .serving call ∧ call.labels = labels ∧ call.call.Carries config

theorem Tracks.apply (h : conn.Tracks labels config) (shared : Shared) (event : ConnectionEvent)
    (hopen : (conn.apply settings shared event).1.openLabels?.isSome = true) : (conn.apply settings shared event).1.Tracks labels config := by
  obtain ⟨call, hphase, hlabels, hcarries⟩ := h
  obtain ⟨next, hnext, hsame, ⟨hcall, -⟩ | ⟨act, after, wire, hstep⟩⟩ := exists_open_apply hphase shared event hopen
  · exact ⟨next, hnext, hsame.trans hlabels, hcall ▸ hcarries⟩
  · have hcarries' := hcarries.step peer settings.limits shared (conn.wire, call.stream)
    rw [hstep] at hcarries'
    exact ⟨next, hnext, hsame.trans hlabels, hcarries'⟩

theorem Tracks.lasts (h : conn.Tracks labels config) {next : Connection} (hlasts : Lasts settings conn next) : next.Tracks labels config := by
  induction hlasts with
  | refl => exact h
  | after next shared event _ hopen ih => exact ih.apply shared event hopen

theorem config_of_happens (h : conn.Tracks labels config) {shared : Shared} {event : ConnectionEvent} {request : WorkRequest}
    {response : WorkResponse} (hran : conn.happens settings shared event = some (.ran request response)) : request.config = config := by
  obtain ⟨call, hphase, -, hcarries⟩ := h
  cases event with
  | step =>
    simp only [happens, hphase] at hran
    cases houtcome : call.call.outcome? with
    | some outcome =>
      rw [houtcome] at hran
      cases hran
    | none =>
      rw [houtcome] at hran
      obtain ⟨item, hitem, heq⟩ := Option.map_eq_some_iff.mp hran
      obtain ⟨rfl, -⟩ := Happening.ran.inj heq
      exact hcarries.nextItem hitem
  | abort =>
    simp only [happens, hphase] at hran
    cases hran
  | _ => cases hran

theorem Tracks.enters (h : conn.Tracks labels config) (shared : Shared) (event : ConnectionEvent) :
    Enters labels (modeLabel config) shared (conn.apply settings shared event).2 := by
  have heffect := effect_apply settings conn shared event
  have hlabels : conn.openLabels? = some labels := by
    obtain ⟨call, hphase, rfl, -⟩ := h
    exact openLabels?_of_serving hphase
  rw [hlabels] at heffect
  generalize hhappens : conn.happens settings shared event = happening at heffect
  generalize (conn.apply settings shared event).1.openLabels? = opened' at heffect
  cases heffect with
  | none _ hmetrics hlog => exact .nothing hmetrics hlog
  | rejected _ _ hmetrics hlog => exact .nothing hmetrics hlog
  | begun _ _ hopened => cases hopened
  | ran request response outcome _ _ hmetrics hlog => exact .run outcome (config_of_happens h hhappens ▸ hmetrics) hlog
  | answered entry _ _ hopened hmetrics hlog =>
    obtain rfl := Option.some.inj hopened
    exact .finished entry rfl hmetrics hlog
  | dropped _ _ hopened hmetrics hlog =>
    obtain rfl := Option.some.inj hopened
    exact .dropped hmetrics hlog

/-- The step that reads the line of a request opens its call. -/
theorem apply_step_of_opens (settings : Settings) (shared : Shared) (hphase : conn.phase = .idle) (hlive : conn.shutdown = false)
    {line : List Char} (hread : conn.wire.readLine.1 = .line line) {request : Request} (hopens : Opens line request) :
    conn.apply settings shared .step =
      ({ conn with wire := conn.wire.readLine.2 } : Connection).openCall settings shared request (Utf8.size line) := by
  rcases hwire : conn.wire.readLine with ⟨read, wire⟩
  rw [hwire] at hread
  obtain rfl : read = .line line := hread
  simp only [Connection.apply, step, hphase, stepIdle, hlive, Bool.false_eq_true, if_false, hwire, takeLine, hopens.visible, hopens.parsed,
    hopens.version, ne_eq, not_true_eq_false]

/-- Under which mode the books have a call and its runs.

A line that asks for runs opens a call in the gauge, and while this call is open all that any event enters for it are its runs, each under the mode of its config, and at last its end, with the labels that it has in the gauge: in the counts, the latencies and the log, or in the gauge only. The mode of these labels is the one of the config for all parameters but a list, and for a list it is the one of no config. -/
theorem labels_differ_for_lists (settings : Settings) (shared : Shared) (hphase : conn.phase = .idle) (hlive : conn.shutdown = false)
    {line : List Char} (hread : conn.wire.readLine.1 = .line line) {request : Request} (hopens : Opens line request)
    (hasks : Asks request config) :
    let (opened, after) := conn.apply settings shared .step
    let mode := if request.params.isArray then WireMode.unspecified.name else modeLabel config
    after.metrics = shared.metrics.begin ⟨mode, request.method⟩ ∧ after.log = shared.log ∧
      (∀ next, Lasts settings opened next → ∀ shared event,
        Enters ⟨mode, request.method⟩ (modeLabel config) shared (next.apply settings shared event).2) ∧
      (mode = modeLabel config ↔ request.params.isArray = false ∨ modeLabel config = WireMode.unspecified.name) := by
  have hmode := hasks.callMode_eq (Request.ordered_params hopens.parsed)
  rw [apply_step_of_opens settings shared hphase hlive hread hopens, ← hmode]
  refine ⟨rfl, rfl, ?_, ?_⟩
  · intro next hlasts shared event
    refine Tracks.enters (Tracks.lasts ⟨_, rfl, rfl, hasks.carries settings⟩ hlasts) shared event
  · rw [hmode]
    cases request.params.isArray with
    | true => simp [eq_comm]
    | false => simp

/-- Parameters in a list with a config of mode `1`, whose missing duration makes the run invalid. -/
def listedRequest : Request :=
  Request.new (.number 1) workMethod (.array [.string "r", .object [("mode", .number (.natural 1))]])

/-- The run is counted under the mode of its config, and the call is in the gauge and in the log under no particular mode. -/
theorem labels_differ_for_lists_processor :
    let settings : Settings := { limits := .unbounded }
    let shared : Shared := { draws := .cycle [] }
    let conn : Connection := { ids := toString, wire := { inbox := Utf8.encode listedRequest.line } }
    conn.wire.readLine.1 = .line listedRequest.line ∧ Opens listedRequest.line listedRequest.received ∧
      Asks listedRequest.received (some { mode := 1 }) ∧
      (conn.apply settings shared .step).2.metrics = shared.metrics.begin ⟨"LOAD_MODE_UNSPECIFIED", "burner.DoWork"⟩ ∧
      (conn.applyAll settings shared [.step, .step, .step]).2.metrics.runs = [(⟨"LOAD_MODE_CPU", "invalid"⟩, 1)] ∧
      (conn.applyAll settings shared [.step, .step, .step]).2.log.map (·.labels.mode) = ["LOAD_MODE_UNSPECIFIED"] := by
  intro settings shared conn
  have hread : conn.wire.readLine.1 = .line listedRequest.line := by decide +kernel
  have hopens : Opens listedRequest.line listedRequest.received := ⟨by decide +kernel, Request.parse_line ⟨trivial, ⟨trivial, trivial⟩, trivial⟩ (by decide), rfl⟩
  have hasks : Asks listedRequest.received (some { mode := 1 }) := by
    have hparams : decodeParams WorkRequest.codec listedRequest.received.params = .ok { requestId := "r", config := some { mode := 1 } } := by
      decide +kernel
    exact .once _ rfl hparams
  obtain ⟨hmetrics, -, -, -⟩ := labels_differ_for_lists settings shared (show conn.phase = .idle from rfl) rfl hread hopens hasks
  exact ⟨hread, hopens, hasks, hmetrics, by decide +kernel, by decide +kernel⟩

end Connection

end LoadGenerator
