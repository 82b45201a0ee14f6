import LoadGenerator.Service.Ongoing
import Mathlib.Tactic

/-!
# What calls leave in the counts

A tally that keys are added to one at a time counts each of them. An item that is run is counted once, and nothing else that a call does by itself reaches what the service shares. The status of a call that fails never has the code of a success.
-/

namespace LoadGenerator

open Message

/-! ## Tallies -/

namespace Service.Tally

variable {κ : Type} [DecidableEq κ]

theorem count_cons (entry : κ × Int) (rest : Tally κ) (key : κ) :
    count (entry :: rest) key = if entry.1 = key then entry.2 else count rest key := by
  unfold count
  rw [List.lookup_cons]
  by_cases h : entry.1 = key
  · simp [h]
  · rw [if_neg h, show (key == entry.1) = false from beq_eq_false_iff_ne.mpr (Ne.symm h)]

theorem count_add (tally : Tally κ) (key other : κ) (amount : Int) :
    (add key amount tally).count other = tally.count other + if key = other then amount else 0 := by
  induction tally with
  | nil =>
    rw [add, count_cons]
    simp [count]
  | cons entry rest ih =>
    rw [add]
    by_cases hkey : entry.1 = key
    · rw [if_pos hkey, count_cons, count_cons, hkey]
      split_ifs <;> simp
    · rw [if_neg hkey, count_cons, count_cons, ih]
      by_cases hother : entry.1 = other
      · rw [if_pos hother, if_pos hother, if_neg (fun h => hkey (hother.trans h.symm)), Int.add_zero]
      · rw [if_neg hother, if_neg hother]

/-- The count of one key has changed by an amount, and no other count has changed. -/
structure Shifts (tally : Tally κ) (key : κ) (amount : Int) (next : Tally κ) : Prop where
  shifted : next.count key = tally.count key + amount
  kept : ∀ other, other ≠ key → next.count other = tally.count other

theorem shifts_add (tally : Tally κ) (key : κ) (amount : Int) : tally.Shifts key amount (add key amount tally) where
  shifted := by rw [count_add, if_pos rfl]
  kept other hother := by rw [count_add, if_neg hother.symm, Int.add_zero]

/-- The sum of the counts of the keys of a kind. -/
def total (kind : κ → Bool) (tally : Tally κ) : Int := ((tally.filter fun entry => kind entry.1).map (·.2)).sum

omit [DecidableEq κ] in
theorem total_cons (kind : κ → Bool) (entry : κ × Int) (rest : Tally κ) :
    total kind (entry :: rest) = (if kind entry.1 = true then entry.2 else 0) + total kind rest := by
  unfold total
  rw [List.filter_cons]
  split_ifs <;> simp

theorem total_add (tally : Tally κ) (kind : κ → Bool) (key : κ) (amount : Int) :
    (add key amount tally).total kind = tally.total kind + if kind key = true then amount else 0 := by
  induction tally with
  | nil =>
    rw [add, total_cons]
    exact Int.add_comm _ _
  | cons entry rest ih =>
    rw [add]
    by_cases hkey : entry.1 = key
    · rw [if_pos hkey, total_cons, total_cons, hkey]
      split_ifs <;> omega
    · rw [if_neg hkey, total_cons, total_cons, ih, Int.add_assoc]

/-- The tally of a list of keys. -/
def ofKeys (keys : List κ) : Tally κ := keys.foldl (fun tally key => add key 1 tally) []

theorem ofKeys_concat (keys : List κ) (key : κ) : ofKeys (keys ++ [key]) = add key 1 (ofKeys keys) := by
  rw [ofKeys, List.foldl_append]
  rfl

theorem count_ofKeys (keys : List κ) (key : κ) : (ofKeys keys).count key = keys.count key := by
  induction keys using List.reverseRecOn with
  | nil => rfl
  | append_singleton keys last ih =>
    rw [ofKeys_concat, count_add, ih, List.count_append, List.count_singleton]
    by_cases h : last = key <;> simp [h]

theorem total_ofKeys (keys : List κ) (kind : κ → Bool) : (ofKeys keys).total kind = keys.countP kind := by
  induction keys using List.reverseRecOn with
  | nil => rfl
  | append_singleton keys last ih =>
    rw [ofKeys_concat, total_add, ih, List.countP_append, List.countP_singleton]
    split_ifs <;> simp

end Service.Tally

namespace Service

/-- What a call is counted and timed under. -/
def CallEvent.finishLabels (event : CallEvent) : FinishLabels := ⟨event.labels, event.code⟩

/-- The finished calls are tallied from the log. -/
theorem total_finishLabels (log : List CallEvent) (labels : CallLabels) :
    (Tally.ofKeys (log.map (·.finishLabels))).total (·.call = labels) = log.countP fun event => event.labels = labels := by
  rw [Tally.total_ofKeys, List.countP_map]
  rfl

theorem count_finishLabels (log : List CallEvent) (labels : CallLabels) (code : Code) :
    (Tally.ofKeys (log.map (·.finishLabels))).count ⟨labels, code⟩ =
      log.countP fun event => event.labels = labels ∧ event.code = code := by
  rw [Tally.count_ofKeys, List.count_eq_countP, List.countP_map]
  simp only [Function.comp_def, CallEvent.finishLabels, beq_eq_decide, FinishLabels.mk.injEq]

/-- One run has been counted under its labels, and nothing else has. -/
structure Metrics.CountsRun (metrics : Metrics) (labels : RunLabels) (next : Metrics) : Prop where
  runs : metrics.runs.Shifts labels 1 next.runs
  inFlight : next.inFlight = metrics.inFlight
  requests : next.requests = metrics.requests
  latencies : next.latencies = metrics.latencies

theorem Metrics.countsRun_recordRun (metrics : Metrics) (mode outcome : String) :
    metrics.CountsRun ⟨mode, outcome⟩ (metrics.recordRun mode outcome) :=
  ⟨Tally.shifts_add _ _ _, rfl, rfl, rfl⟩

/-- One call has been counted and timed under its labels and its code and has left the gauge, and nothing else has been counted. -/
structure Metrics.CountsCall (metrics : Metrics) (event : CallEvent) (next : Metrics) : Prop where
  requests : metrics.requests.Shifts ⟨event.labels, event.code⟩ 1 next.requests
  latencies : metrics.latencies.Shifts ⟨event.labels, event.code⟩ 1 next.latencies
  inFlight : metrics.inFlight.Shifts event.labels (-1) next.inFlight
  runs : next.runs = metrics.runs

theorem Metrics.countsCall_finish (metrics : Metrics) (event : CallEvent) : metrics.CountsCall event (metrics.finish event.labels event.code) :=
  ⟨Tally.shifts_add _ _ _, Tally.shifts_add _ _ _, Tally.shifts_add _ _ _, rfl⟩

/-- One call has ended: its entry is the last of the log, it is counted, and no draw is taken. -/
structure Shared.Enters (shared : Shared) (event : CallEvent) (next : Shared) : Prop where
  log : next.log = shared.log ++ [event]
  metrics : shared.metrics.CountsCall event next.metrics
  draws : next.draws = shared.draws

/-! ## Calls -/

theorem ne_success_of_runConfig {limits : Load.Limits} {draws : Load.Draws} {config : Option WorkConfig} {failure : ItemFailure}
    (h : (runConfig limits draws config).1 = some failure) : failure.1 ≠ "success" := by
  unfold runConfig at h
  cases hspec : toSpec config with
  | error e =>
    rw [hspec] at h
    obtain rfl := Option.some.inj h
    simp [invalidItem]
  | ok spec =>
    rw [hspec] at h
    dsimp only at h
    cases houtcome : (Load.attempt limits spec draws).1 with
    | ok _ =>
      rw [houtcome] at h
      cases h
    | error e =>
      rw [houtcome] at h
      obtain rfl := Option.some.inj h
      cases e <;> simp [Load.RunError.label]

/-- An item that is run is counted once under its mode, as a success just if it is answered as one. -/
theorem runItem_books (limits : Load.Limits) (shared : Shared) (request : WorkRequest) :
    ∃ outcome, (outcome = "success" ↔ (runItem limits shared request).1.ok = true) ∧
      (runItem limits shared request).2.metrics = shared.metrics.recordRun (modeLabel request.config) outcome ∧
      (runItem limits shared request).2.log = shared.log := by
  unfold runItem
  dsimp only
  cases hfailure : (runConfig limits shared.draws request.config).1 with
  | none => exact ⟨"success", iff_of_true rfl rfl, rfl, rfl⟩
  | some failure => exact ⟨failure.1, iff_of_false (ne_success_of_runConfig hfailure) Bool.false_ne_true, rfl, rfl⟩

namespace Call

variable {σ : Type} {peer : Peer σ} {limits : Load.Limits}

theorem step_reads {shape : Shape} (h : ∀ item left, shape ≠ .repeated item left) (shared : Shared) (s : σ) :
    step peer limits ⟨shape, .head⟩ shared s =
      match peer.cancelled s with
      | (true, s) => (some .sawCancelled, finished shape (.error .callCancelled), shared, s)
      | (false, s) =>
        match peer.receive s with
        | (none, s) => (none, ⟨shape, .head⟩, shared, s)
        | (some (.ok (some request)), s) => (some (.received request), ⟨shape, .running request⟩, shared, s)
        | (some (.ok none), s) => (some .streamEnded, finished shape (.ok (streamReply shape)), shared, s)
        | (some (.error status), s) => (some (.streamFailed status), finished shape (.error status), shared, s) := by
  cases shape with
  | repeated item left => exact absurd rfl (h item left)
  | _ => rfl

theorem shared_step_reads {shape : Shape} (h : ∀ item left, shape ≠ .repeated item left) (shared : Shared) (s : σ) :
    (step peer limits ⟨shape, .head⟩ shared s).2.2.1 = shared := by
  rw [step_reads h]
  rcases peer.cancelled s with ⟨_ | _, s'⟩ <;> dsimp only
  rcases peer.receive s' with ⟨_ | _ | _ | request, s''⟩ <;> rfl

/-- A step of a call leaves what the service shares as it is, unless it runs an item. -/
theorem shared_step (peer : Peer σ) (limits : Load.Limits) (call : Call) (shared : Shared) (s : σ) :
    (call.step peer limits shared s).2.2.1 =
      (call.nextItem? (peer.cancelled s).1).elim shared fun item => (runItem limits shared item.1).2 := by
  obtain ⟨shape, stage⟩ := call
  cases stage with
  | ended outcome => rfl
  | running request => rfl
  | sending response =>
    rcases hsend : peer.send s response with ⟨_ | _, s'⟩ <;> simp only [step, hsend, nextItem?, Option.elim_none]
  | head =>
    cases shape with
    | unary => exact shared_step_reads (by simp) shared s
    | tally summary => exact shared_step_reads (by simp) shared s
    | exchange => exact shared_step_reads (by simp) shared s
    | repeated item left =>
      cases left with
      | zero => rfl
      | succ left => rcases hcancelled : peer.cancelled s with ⟨_ | _, s'⟩ <;> simp only [step, hcancelled, nextItem?] <;> rfl

/-- The log is not touched while a call is open. -/
theorem log_step (peer : Peer σ) (limits : Load.Limits) (call : Call) (shared : Shared) (s : σ) :
    (call.step peer limits shared s).2.2.1.log = shared.log := by
  rw [shared_step]
  cases call.nextItem? (peer.cancelled s).1 with
  | none => rfl
  | some item =>
    obtain ⟨-, -, -, hlog⟩ := runItem_books limits shared item.1
    exact hlog

theorem error_step_reads {shape : Shape} (hshape : ∀ item left, shape ≠ .repeated item left) {shared : Shared} {s : σ}
    {status : Status} (h : (step peer limits ⟨shape, .head⟩ shared s).2.1.outcome? = some (.error status)) :
    status = .callCancelled ∨ ∃ s, (peer.receive s).1 = some (.error status) := by
  rw [step_reads hshape] at h
  rcases hcancelled : peer.cancelled s with ⟨_ | _, s'⟩ <;> rw [hcancelled] at h
  · rcases hreceive : peer.receive s' with ⟨_ | _ | _ | request, s''⟩ <;> simp only [hreceive] at h <;> cases h
    exact .inr ⟨s', by rw [hreceive]⟩
  · cases h
    exact .inl rfl

/-- What can make a call fail: its token, what it receives, and what it sends. -/
theorem error_step {call : Call} {shared : Shared} {s : σ} {status : Status}
    (h : (call.step peer limits shared s).2.1.outcome? = some (.error status)) :
    call.outcome? = some (.error status) ∨ (status = .callCancelled ∨ ∃ s, (peer.receive s).1 = some (.error status)) ∨
      ∃ s response, (peer.send s response).1 = .error status := by
  obtain ⟨shape, stage⟩ := call
  cases stage with
  | ended outcome => exact .inl h
  | running request => cases shape <;> cases h
  | sending response =>
    rcases hsend : peer.send s response with ⟨_ | _, s'⟩ <;> simp only [step, hsend] at h <;> cases h
    exact .inr (.inr ⟨s, response, by rw [hsend]⟩)
  | head =>
    cases shape with
    | unary => exact .inr (.inl (error_step_reads (by simp) h))
    | tally summary => exact .inr (.inl (error_step_reads (by simp) h))
    | exchange => exact .inr (.inl (error_step_reads (by simp) h))
    | repeated item left =>
      cases left with
      | zero => cases h
      | succ left =>
        rcases hcancelled : peer.cancelled s with ⟨_ | _, s'⟩ <;> simp only [step, hcancelled] at h <;> cases h
        exact .inr (.inl (.inl rfl))

end Call

theorem code_openWith {α : Type} (codec : JsonCodec α) (params : Json) (start : α → Call)
    (hstart : ∀ a status, (start a).outcome? = some (.error status) → status.code ≠ .ok) {status : Status}
    (h : (openWith codec params start).outcome? = some (.error status)) : status.code ≠ .ok := by
  unfold openWith decodeParams at h
  cases hdecoded : codec.ofJson (if params.isNull then .object [] else params) with
  | ok a =>
    rw [hdecoded] at h
    exact hstart a status h
  | error e =>
    rw [hdecoded] at h
    cases h
    simp

theorem code_openCall (settings : Settings) (method : String) (params : Json) {status : Status}
    (h : (openCall settings method params).outcome? = some (.error status)) : status.code ≠ .ok := by
  unfold openCall at h
  split_ifs at h
  · cases h
  · exact code_openWith _ _ _ (fun _ _ h => by cases h) h
  · exact code_openWith _ _ _ (fun _ _ h => by cases h) h
  · refine code_openWith _ _ _ (fun request status h => ?_) h
    unfold Call.repeated at h
    split_ifs at h <;> cases h
    simp
  · cases h
  · cases h
  · cases h
    simp

end Service

end LoadGenerator
