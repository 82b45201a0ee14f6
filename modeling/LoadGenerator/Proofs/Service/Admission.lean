import LoadGenerator.Daemon.Basic
import LoadGenerator.Proofs.Load.Validation
import LoadGenerator.Proofs.Service.Truncation

/-!
# What a call of one request answers

From the members of a config on the wire and the configuration of the daemon to the answer it is one condition on integers: every quantity that the mode uses is positive and under its ceiling. Where it holds, the answer depends on one draw; where it fails, none is taken. Nothing that happens while the run goes on has a say in it, be it a worker that fails or a token that is cancelled.
-/

namespace LoadGenerator.Service

open Message

/-! ## Admission -/

/-- What a daemon asks of the config of a run. -/
@[mk_iff] structure Admits (configuration : Configuration) (config : WorkConfig) : Prop where
  mode : 1 ≤ config.mode.toInt ∧ config.mode.toInt ≤ 4
  duration : 0 < config.durationMs.toInt
  durationCeiling : configuration.maxDurationMs.toNat = 0 ∨ config.durationMs.toInt ≤ configuration.maxDurationMs.toNat
  latency : 0 ≤ config.latencyMs.toInt
  errorRate : Binary64.zero ≤ config.errorRate ∧ config.errorRate ≤ Binary64.one
  parallelism : config.mode.toInt = 1 ∨ config.mode.toInt = 3 → 0 < config.parallelism.toInt ∧
    (configuration.maxParallelism.toInt = 0 ∨ config.parallelism.toInt ≤ configuration.maxParallelism.toInt)
  allocMb : config.mode.toInt = 2 ∨ config.mode.toInt = 3 → 0 < config.allocMb.toInt ∧
    (configuration.maxAllocMb.toInt = 0 ∨ config.allocMb.toInt ≤ configuration.maxAllocMb.toInt)
  ioBytes : config.mode.toInt = 4 → 0 < config.ioBytes.toInt

instance (configuration : Configuration) (config : WorkConfig) : Decidable (Admits configuration config) :=
  decidable_of_iff _ (admits_iff configuration config).symm

/-- The mode of a config is known just if it has a number from one to four, which says what it uses. -/
theorem modeOf_cases (config : WorkConfig) :
    (∃ mode, modeOf config = .ok mode ∧ (1 ≤ config.mode.toInt ∧ config.mode.toInt ≤ 4) ∧
      (mode.usesCpu = true ↔ config.mode.toInt = 1 ∨ config.mode.toInt = 3) ∧
      (mode.usesMemory = true ↔ config.mode.toInt = 2 ∨ config.mode.toInt = 3) ∧
      (mode.usesDisk = true ↔ config.mode.toInt = 4)) ∨
      (∃ e, modeOf config = .error e) ∧ ¬ (1 ≤ config.mode.toInt ∧ config.mode.toInt ≤ 4) := by
  unfold modeOf WorkConfig.wireMode
  generalize config.mode = raw
  cases hmode : WireMode.ofRaw? raw with
  | some mode =>
    have hraw : mode.raw = raw := by simpa using List.find?_some hmode
    subst hraw
    cases mode with
    | unspecified => exact .inr ⟨⟨_, rfl⟩, by decide⟩
    | cpu => exact .inl ⟨.cpu, rfl, by decide⟩
    | mem => exact .inl ⟨.mem, rfl, by decide⟩
    | cpuMem => exact .inl ⟨.cpuMem, rfl, by decide⟩
    | io => exact .inl ⟨.io, rfl, by decide⟩
  | none =>
    refine .inr ⟨⟨_, rfl⟩, ?_⟩
    intro hrange
    have hnone (mode : WireMode) (hmem : mode ∈ WireMode.all) : mode.raw.toInt ≠ raw.toInt := by
      simpa [← Int32.toInt_inj] using List.find?_eq_none.mp hmode mode hmem
    have hcpu := hnone .cpu (by decide)
    have hmem := hnone .mem (by decide)
    have hboth := hnone .cpuMem (by decide)
    have hio := hnone .io (by decide)
    simp only [WireMode.raw, show (1 : Int32).toInt = 1 from rfl, show (2 : Int32).toInt = 2 from rfl,
      show (3 : Int32).toInt = 3 from rfl, show (4 : Int32).toInt = 4 from rfl] at hcpu hmem hboth hio
    omega

/-- Milliseconds are refused at most where they are negative. -/
theorem spanOf_cases (field : String) (ms : Int64) :
    spanOf field ms = .ok ⟨ms.toInt * 1000000⟩ ∨ (∃ e, spanOf field ms = .error e) ∧ ms.toInt < 0 := by
  unfold spanOf Span.ofMillis?
  have hupper := Int64.toInt_lt ms
  split_ifs with hrange
  · exact .inl rfl
  · exact .inr ⟨⟨_, rfl⟩, by omega⟩

/-- A config makes a spec just if its mode is known and its durations are in range; the other quantities pass as they are. -/
theorem toSpec_eq_ok_iff {config : WorkConfig} {spec : Load.Spec} :
    toSpec (some config) = .ok spec ↔ ∃ mode duration latency, modeOf config = .ok mode ∧
      spanOf "duration_ms" config.durationMs = .ok duration ∧ spanOf "latency_ms" config.latencyMs = .ok latency ∧
      spec = ⟨mode, duration, config.allocMb, config.parallelism, config.ioBytes, latency, config.errorRate⟩ := by
  simp only [toSpec]
  rcases modeOf config with e | mode
  · simp [bind, Except.bind]
  · rcases spanOf "duration_ms" config.durationMs with e | duration
    · simp [bind, Except.bind]
    · rcases spanOf "latency_ms" config.latencyMs with e | latency <;> simp [bind, Except.bind, pure, Except.pure, eq_comm]

theorem InvalidConfig.message_ne_empty (e : InvalidConfig) : e.message ≠ "" := by
  cases e <;> (repeat' apply Load.append_ne_empty) <;> decide

theorem openCall_work {params : Json} {request : WorkRequest} (h : decodeParams WorkRequest.codec params = .ok request)
    (settings : Settings) : openCall settings workMethod params = .unary request := by
  simp [openCall, openWith, h, workMethod, healthMethod, pingMethod]

section

variable {configuration : Configuration} (halloc : 0 ≤ configuration.maxAllocMb.toInt) (hparallelism : 0 ≤ configuration.maxParallelism.toInt)

include halloc hparallelism

/-- A config is admitted just if it makes a spec that is accepted. -/
theorem admits_iff_accepted (config : WorkConfig) :
    Admits configuration config ↔ ∃ spec, toSpec (some config) = .ok spec ∧ spec.validate configuration.limits = .ok () := by
  rw [admits_iff]
  obtain ⟨mode, hmode, hrange, hcpu, hmemory, hdisk⟩ | ⟨⟨e, hmode⟩, hrange⟩ := modeOf_cases config
  · obtain hduration | ⟨⟨e, hduration⟩, hnegative⟩ := spanOf_cases "duration_ms" config.durationMs
    · obtain hlatency | ⟨⟨e, hlatency⟩, hnegative⟩ := spanOf_cases "latency_ms" config.latencyMs
      · rw [toSpec_eq_ok_iff.mpr ⟨mode, _, _, hmode, hduration, hlatency, rfl⟩]
        simp only [Except.ok.injEq, exists_eq_left', Load.Spec.validate_eq_ok_iff, Load.Spec.acceptable_iff, Configuration.limits,
          hcpu, hmemory, hdisk, Int32.lt_iff_toInt_lt, Int32.le_iff_toInt_le, show (0 : Int32).toInt = 0 from rfl]
        constructor
        · rintro ⟨-, hduration, hceiling, hlatency, hrate, hparallelism, halloc, hio⟩
          exact ⟨by omega, by omega, by omega, hrate, fun h => (hparallelism h).1, fun h => (halloc h).1, hio, fun h => by omega, fun h => by omega⟩
        · rintro ⟨hduration, hceiling, hlatency, hrate, hpositive, hpositive', hio, hceiling', hceiling''⟩
          exact ⟨hrange, by omega, by omega, by omega, hrate, fun h => by omega, fun h => by omega, hio⟩
      · refine iff_of_false (fun h => ?_) ?_
        · have hlatency := h.2.2.2.1
          omega
        · rintro ⟨spec, hspec, -⟩
          obtain ⟨mode, duration, latency, -, -, hok, -⟩ := toSpec_eq_ok_iff.mp hspec
          rw [hlatency] at hok
          cases hok
    · refine iff_of_false (fun h => ?_) ?_
      · have hduration := h.2.1
        omega
      · rintro ⟨spec, hspec, -⟩
        obtain ⟨mode, duration, latency, -, hok, -⟩ := toSpec_eq_ok_iff.mp hspec
        rw [hduration] at hok
        cases hok
  · refine iff_of_false (fun h => hrange h.1) ?_
    rintro ⟨spec, hspec, -⟩
    obtain ⟨mode, duration, latency, hok, -⟩ := toSpec_eq_ok_iff.mp hspec
    rw [hmode] at hok
    cases hok

theorem runItem_of_admits {request : WorkRequest} {config : WorkConfig} (hconfig : request.config = some config)
    (hadmits : Admits configuration config) (shared : Shared) :
    runItem configuration.limits shared request = answerItem { shared with draws := (Load.fails config.errorRate shared.draws).2 } request
      (if (Load.fails config.errorRate shared.draws).1 then some ("injected", "load: injected error") else none) := by
  obtain ⟨spec, hspec, hvalid⟩ := (admits_iff_accepted halloc hparallelism config).mp hadmits
  have hrate : spec.errorRate = config.errorRate := by
    obtain ⟨mode, duration, latency, -, -, -, rfl⟩ := toSpec_eq_ok_iff.mp hspec
    rfl
  rw [← hconfig] at hspec
  rw [runItem_of_attempt hspec (Load.attemptWith_of_accepted hvalid none shared.draws), ← hrate]
  dsimp only [Option.getD_none, Option.isSome_none, Bool.false_eq_true, if_false]
  split_ifs <;> rfl

/-- An item that is not admitted is refused with some message, and takes no draw. -/
theorem runItem_of_not_admits {request : WorkRequest} (hrefused : ¬ ∃ config, request.config = some config ∧ Admits configuration config)
    (shared : Shared) :
    ∃ message ≠ "", runItem configuration.limits shared request = answerItem shared request (some ("invalid", message)) := by
  cases hspec : toSpec request.config with
  | error e => exact ⟨e.message, e.message_ne_empty, runItem_of_invalid hspec⟩
  | ok spec =>
    cases hvalid : spec.validate configuration.limits with
    | error violation =>
      refine ⟨violation.message, violation.message_ne_empty, ?_⟩
      exact runItem_of_attempt hspec (Load.attemptWith_of_refused hvalid none shared.draws)
    | ok _ =>
      cases hconfig : request.config with
      | none =>
        rw [hconfig] at hspec
        cases hspec
      | some config =>
        rw [hconfig] at hspec
        exact absurd ⟨config, hconfig, (admits_iff_accepted halloc hparallelism config).mpr ⟨spec, hspec, hvalid⟩⟩ hrefused

/-- What comes of a request: its response, and the label that its run is counted under. -/
theorem runItem_decides (request : WorkRequest) (shared : Shared)
    (hdraw : Binary64.zero ≤ shared.draws.next.1 ∧ shared.draws.next.1 < Binary64.one) :
    ∃ response label draws,
      runItem configuration.limits shared request =
        (response, { shared with draws, metrics := shared.metrics.recordRun (modeLabel request.config) label }) ∧
      response.requestId = request.requestId ∧ (response.errorMessage = "" ↔ response.ok = true) ∧
      ((label = "success" ∧ response.ok = true ∧
          ∃ config, request.config = some config ∧ Admits configuration config ∧ ¬ shared.draws.next.1 < config.errorRate) ∨
        (label = "injected" ∧ response.ok = false ∧
          ∃ config, request.config = some config ∧ Admits configuration config ∧ shared.draws.next.1 < config.errorRate) ∨
        label = "invalid" ∧ response.ok = false ∧ draws = shared.draws ∧
          ¬ ∃ config, request.config = some config ∧ Admits configuration config) := by
  by_cases hadmitted : ∃ config, request.config = some config ∧ Admits configuration config
  · obtain ⟨config, hconfig, hadmits⟩ := hadmitted
    have hanswer := runItem_of_admits halloc hparallelism hconfig hadmits shared
    rw [Load.fails_eq_decide config.errorRate hdraw] at hanswer
    by_cases hfailing : shared.draws.next.1 < config.errorRate
    · rw [decide_eq_true hfailing, if_pos rfl] at hanswer
      exact ⟨_, _, _, hanswer, rfl, by simp, .inr (.inl ⟨rfl, rfl, config, hconfig, hadmits, hfailing⟩)⟩
    · rw [decide_eq_false hfailing, if_neg Bool.false_ne_true] at hanswer
      exact ⟨_, _, _, hanswer, rfl, by simp, .inl ⟨rfl, rfl, config, hconfig, hadmits, hfailing⟩⟩
  · obtain ⟨message, hmessage, hanswer⟩ := runItem_of_not_admits halloc hparallelism hadmitted shared
    exact ⟨_, _, _, hanswer, rfl, by simp [hmessage], .inr (.inr ⟨rfl, rfl, rfl, hadmitted⟩)⟩

/-- The one condition under which a request succeeds, for every configuration, every config on the wire and every draw between zero and one.

The response is settled before the run: it succeeds just if the config of the request is there and admitted and the draw is not below its error rate, it carries the id of the request, and its message is empty just if it succeeds. The run is counted once, under the mode of the config: as injected where the draw is the only thing against it, and as invalid, with no draw taken, where anything else is. No other count changes. Whatever then happens to the run, its workers and the token of the call, the call can come to its end and ends with this response. -/
theorem admission_decides (request : WorkRequest) (shared : Shared)
    (hdraw : Binary64.zero ≤ shared.draws.next.1 ∧ shared.draws.next.1 < Binary64.one) :
    ∃ (response : WorkResponse) (label : String),
      response.requestId = request.requestId ∧
      (response.ok = true ↔ ∃ config, request.config = some config ∧ Admits configuration config ∧ ¬ shared.draws.next.1 < config.errorRate) ∧
      (response.errorMessage = "" ↔ response.ok = true) ∧
      (label = "success" ↔ response.ok = true) ∧
      (label = "injected" ↔ ∃ config, request.config = some config ∧ Admits configuration config ∧ shared.draws.next.1 < config.errorRate) ∧
      (label = "invalid" ↔ ¬ ∃ config, request.config = some config ∧ Admits configuration config) ∧
      (∀ params, decodeParams WorkRequest.codec params = .ok request → openCall configuration.settings workMethod params = .unary request) ∧
      ∀ (σ : Type) (feed : Feed σ) (directory : Load.Directory) (s : σ) (cancelled : Bool) (events : List OngoingEvent),
        let ongoing : Ongoing σ :=
          { call := .unary request, cancelled, shared, directory, peer := s : Ongoing σ }.applyAll configuration.limits feed events
        ongoing.CanEnd configuration.limits feed ∧
          ∀ outcome, ongoing.call.outcome? = some outcome → outcome = .ok (.work response) ∧
            ongoing.shared.metrics = shared.metrics.recordRun (modeLabel request.config) label ∧
            shared.metrics.CountsRun ⟨modeLabel request.config, label⟩ ongoing.shared.metrics ∧
            (label = "invalid" → ongoing.shared.draws = shared.draws) := by
  obtain ⟨response, label, draws, hanswer, hid, hmessage, hlabel⟩ := runItem_decides halloc hparallelism request shared hdraw
  -- The three labels exclude each other, and so do the conditions for them.
  obtain ⟨hok, hsuccess, hinjected, hinvalid, hdraws⟩ :
      (response.ok = true ↔ ∃ config, request.config = some config ∧ Admits configuration config ∧ ¬ shared.draws.next.1 < config.errorRate) ∧
      (label = "success" ↔ response.ok = true) ∧
      (label = "injected" ↔ ∃ config, request.config = some config ∧ Admits configuration config ∧ shared.draws.next.1 < config.errorRate) ∧
      (label = "invalid" ↔ ¬ ∃ config, request.config = some config ∧ Admits configuration config) ∧
      (label = "invalid" → draws = shared.draws) := by
    rcases hlabel with ⟨rfl, hok, config, hconfig, hadmits, hfailing⟩ | ⟨rfl, hok, config, hconfig, hadmits, hfailing⟩ |
      ⟨rfl, hok, rfl, hrefused⟩
    · simp [hok, hconfig, hadmits, hfailing]
    · simp [hok, hconfig, hadmits, hfailing]
    · have hnone (config : WorkConfig) (hconfig : request.config = some config) : ¬ Admits configuration config :=
        fun hadmits => hrefused ⟨config, hconfig, hadmits⟩
      simp +contextual [hok, hnone]
  refine ⟨response, label, hid, hok, hmessage, hsuccess, hinjected, hinvalid, fun params h => openCall_work h _, ?_⟩
  · intro σ feed directory s cancelled events ongoing
    have htruncates : ongoing.Truncates configuration.limits feed (.unary request) shared s :=
      Ongoing.Truncates.applyAll (.level (Call.Reaches.start configuration.limits feed (.unary request) shared s) rfl) events
    refine ⟨htruncates.canEnd_of_ends 1 rfl, ?_⟩
    intro outcome houtcome
    obtain ⟨hreply, hshared⟩ := htruncates.unary_outcome houtcome
    rw [hanswer] at hreply hshared
    have hmetrics : ongoing.shared.metrics = shared.metrics.recordRun (modeLabel request.config) label := by rw [hshared]
    exact ⟨hreply, hmetrics, hmetrics ▸ shared.metrics.countsRun_recordRun _ _, fun h => by rw [hshared, hdraws h]⟩

end

/-- Two processors for ten milliseconds fail in a quarter of all cases; a draw of an eighth lets the run fail, the third one of its kind. -/
theorem admission_decides_injected :
    let configuration := Configuration.standard 4
    let config : WorkConfig := { mode := 1, durationMs := 10, parallelism := 2, errorRate := .ofQuotient false 1 4 }
    let request : WorkRequest := { requestId := "r", config := some config }
    let shared : Shared := { draws := .always (.ofQuotient false 1 8), metrics := { runs := [(⟨"LOAD_MODE_CPU", "injected"⟩, 2)] } }
    let feed : Feed Unit := ⟨fun _ => (.ok none, ()), fun _ _ => (.ok (), ())⟩
    let start : Ongoing Unit := { call := .unary request, cancelled := false, shared, peer := () }
    let ongoing := start.applyAll configuration.limits feed [.step, .run .resume, .step]
    0 ≤ configuration.maxAllocMb.toInt ∧ 0 ≤ configuration.maxParallelism.toInt ∧
      (Binary64.zero ≤ shared.draws.next.1 ∧ shared.draws.next.1 < Binary64.one) ∧ Admits configuration config ∧
      ∃ (response : WorkResponse) (label : String), response.requestId = "r" ∧ response.ok = false ∧ label = "injected" ∧
        ongoing.call.outcome? = some (.ok (.work response)) ∧
        ongoing.shared.metrics.runs.count ⟨"LOAD_MODE_CPU", label⟩ = 3 ∧
        ∀ other, other ≠ ⟨"LOAD_MODE_CPU", label⟩ → ongoing.shared.metrics.runs.count other = 0 := by
  intro configuration config request shared feed start ongoing
  have hdraw : Binary64.zero ≤ shared.draws.next.1 ∧ shared.draws.next.1 < Binary64.one := by decide
  have hadmits : Admits configuration config := by decide
  have halloc : 0 ≤ configuration.maxAllocMb.toInt := by decide
  have hparallelism : 0 ≤ configuration.maxParallelism.toInt := by decide
  obtain ⟨response, label, hid, hok, -, -, hinjected, -, -, hcall⟩ := admission_decides halloc hparallelism request shared hdraw
  obtain rfl : label = "injected" := hinjected.mpr ⟨config, rfl, hadmits, by decide⟩
  obtain ⟨outcome, houtcome⟩ : ∃ outcome, ongoing.call.outcome? = some outcome := Option.isSome_iff_exists.mp (by decide +kernel)
  obtain ⟨rfl, -, hcounts, -⟩ := (hcall Unit feed (some []) () false [.step, .run .resume, .step]).2 outcome houtcome
  rw [show modeLabel request.config = "LOAD_MODE_CPU" by decide] at hcounts
  refine ⟨halloc, hparallelism, hdraw, hadmits, response, _, hid, ?_, rfl, houtcome, ?_, fun other hother => ?_⟩
  · rw [Bool.eq_false_iff, ne_eq, hok]
    rintro ⟨other, hother, -, hfailing⟩
    cases hother
    exact hfailing (by decide)
  · rw [hcounts.runs.shifted]
    decide
  · rw [hcounts.runs.kept other hother, Tally.count_cons, if_neg hother.symm]
    rfl

end LoadGenerator.Service
