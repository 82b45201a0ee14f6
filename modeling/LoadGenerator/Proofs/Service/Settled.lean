import LoadGenerator.Proofs.Service.Admission

/-!
# Items that leave nothing to chance

A rate that is not strictly between zero and one decides about the injected failure by itself. An item with such a rate takes no draw, so what it comes to is settled by its request and the limits, and what a call does in a step is the same whoever else uses the service: the next call, what it reads and writes, and what it enters in the counts and the log.
-/

namespace LoadGenerator

open Message Service

namespace Load

/-- A rate that leaves nothing to chance. -/
def IsSettled (rate : Binary64) : Prop := ¬ (Binary64.zero < rate ∧ rate < Binary64.one)

instance (rate : Binary64) : Decidable (IsSettled rate) := inferInstanceAs (Decidable (¬ _))

theorem fails_of_settled {rate : Binary64} (h : IsSettled rate) (hrate : Binary64.zero ≤ rate ∧ rate ≤ Binary64.one) :
    ∃ failed, ∀ draws, fails rate draws = (failed, draws) := by
  obtain ⟨⟨hzero, hnumber, hbelow⟩, -, hone, habove⟩ := hrate
  unfold fails
  by_cases hnever : rate ≤ Binary64.zero
  · exact ⟨false, fun draws => by rw [if_pos hnever]⟩
  · have halways : Binary64.one ≤ rate := by
      refine ⟨hone, hnumber, Int.not_lt.mp fun hless => h ⟨⟨hzero, hnumber, ?_⟩, hnumber, hone, hless⟩⟩
      exact Int.not_le.mp fun hle => hnever ⟨hnumber, hzero, hle⟩
    exact ⟨true, fun draws => by rw [if_neg hnever, if_pos halways]⟩

theorem attempt_of_settled (limits : Limits) {spec : Spec} (h : IsSettled spec.errorRate) :
    ∃ outcome, ∀ draws, attempt limits spec draws = (outcome, draws) := by
  unfold attempt
  cases hvalid : spec.validate limits with
  | error violation => exact ⟨_, fun _ => rfl⟩
  | ok _ =>
    obtain ⟨failed, hfails⟩ := fails_of_settled h (Spec.validate_eq_ok_iff.mp hvalid).errorRate
    exact ⟨if failed then .error .injected else .ok (), fun draws => by rw [hfails]⟩

/-- The draws are the same before and after a run whose rate is settled. -/
theorem Run.Proper.draws_eq {limits : Limits} {spec : Spec} {draws draws' : Draws} {before : Directory} {run : Run}
    (h : run.Proper limits spec none draws before draws') (hsettled : IsSettled spec.errorRate) : draws' = draws := by
  obtain ⟨outcome, hattempt⟩ := attempt_of_settled limits hsettled
  have hleft : (attemptWith limits spec none draws).2 = (none, draws) := by
    rw [attemptWith, hattempt]
  rcases h.progress.left_cases with hleft' | hleft'
  · exact (Prod.mk.inj hleft').2
  · exact (Prod.mk.inj (hleft'.trans hleft)).2

end Load

/-- A request whose rate, if it has one, leaves nothing to chance. -/
def Message.WorkRequest.IsSettled (request : WorkRequest) : Prop :=
  ∀ config, request.config = some config → Load.IsSettled config.errorRate

namespace Service

/-! ## Entries in the books -/

/-- What one step enters in the counts and the log. -/
inductive Posting where
  | nothing
  | begun (labels : CallLabels)
  | ran (labels : RunLabels)
  | finished (event : CallEvent)

namespace Shared

def post (shared : Shared) : Posting → Shared
  | .nothing => shared
  | .begun labels => { shared with metrics := shared.metrics.begin labels }
  | .ran labels => { shared with metrics := shared.metrics.recordRun labels.mode labels.outcome }
  | .finished event => { shared with metrics := shared.metrics.finish event.labels event.code, log := shared.log ++ [event] }

@[simp] theorem draws_post (shared : Shared) (posting : Posting) : (shared.post posting).draws = shared.draws := by
  cases posting <;> rfl

end Shared

/-- One of the series that are counted. -/
inductive Series where
  | inFlight (labels : CallLabels)
  | requests (labels : FinishLabels)
  | latencies (labels : FinishLabels)
  | runs (labels : RunLabels)

def Metrics.value (metrics : Metrics) : Series → Int
  | .inFlight labels => metrics.inFlight.count labels
  | .requests labels => metrics.requests.count labels
  | .latencies labels => metrics.latencies.count labels
  | .runs labels => metrics.runs.count labels

/-- What a step adds to a series. -/
def Posting.adds : Posting → Series → Int
  | .begun labels, .inFlight other => if labels = other then 1 else 0
  | .finished event, .inFlight labels => if event.labels = labels then -1 else 0
  | .finished event, .requests labels | .finished event, .latencies labels => if event.finishLabels = labels then 1 else 0
  | .ran labels, .runs other => if labels = other then 1 else 0
  | _, _ => 0

/-- What a step adds to the log. -/
def Posting.entries : Posting → List CallEvent
  | .finished event => [event]
  | _ => []

theorem Shared.value_post (shared : Shared) (posting : Posting) (series : Series) :
    (shared.post posting).metrics.value series = shared.metrics.value series + posting.adds series := by
  cases posting <;> cases series <;> first | exact (Int.add_zero _).symm | exact Tally.count_add _ _ _ _

theorem Shared.enters_of_eq_post {shared next : Shared} {event : CallEvent} (h : next = shared.post (.finished event)) : shared.Enters event next := by
  subst h
  exact ⟨rfl, shared.metrics.countsCall_finish event, rfl⟩

theorem Shared.log_post (shared : Shared) (posting : Posting) : (shared.post posting).log = shared.log ++ posting.entries := by
  cases posting <;> simp [post, Posting.entries]

/-! ## Settled items -/

theorem spec_of_settled {request : WorkRequest} (h : request.IsSettled) {spec : Load.Spec} (hspec : toSpec request.config = .ok spec) :
    Load.IsSettled spec.errorRate := by
  cases hconfig : request.config with
  | none =>
    rw [hconfig] at hspec
    cases hspec
  | some config =>
    rw [hconfig] at hspec
    obtain ⟨_, _, _, -, -, -, rfl⟩ := toSpec_eq_ok_iff.mp hspec
    exact h config hconfig

theorem runConfig_of_settled (limits : Load.Limits) {request : WorkRequest} (h : request.IsSettled) :
    ∃ failure, ∀ draws, runConfig limits draws request.config = (failure, draws) := by
  unfold runConfig
  cases hspec : toSpec request.config with
  | error e => exact ⟨_, fun _ => rfl⟩
  | ok spec =>
    obtain ⟨outcome, hattempt⟩ := Load.attempt_of_settled limits (spec_of_settled h hspec)
    exact ⟨failureOf outcome, fun draws => by dsimp only; rw [hattempt]⟩

/-- What comes of an item, and what is counted for it. -/
theorem runItem_of_settled (limits : Load.Limits) {request : WorkRequest} (h : request.IsSettled) :
    ∃ response posting, ∀ shared, runItem limits shared request = (response, shared.post posting) := by
  obtain ⟨failure, hrun⟩ := runConfig_of_settled limits h
  cases failure with
  | none =>
    refine ⟨{ requestId := request.requestId, ok := true }, .ran ⟨modeLabel request.config, "success"⟩, fun shared => ?_⟩
    rw [runItem, hrun]
    rfl
  | some failure =>
    refine ⟨{ requestId := request.requestId, ok := false, errorMessage := failure.2 }, .ran ⟨modeLabel request.config, failure.1⟩,
      fun shared => ?_⟩
    rw [runItem, hrun]
    rfl

/-- What a call makes of a run that has returned is what comes of its item. -/
theorem answerItem_of_settled {limits : Load.Limits} {request : WorkRequest} (h : request.IsSettled) {spec : Load.Spec}
    (hspec : toSpec request.config = .ok spec) {run : Load.Run} {draws draws' : Load.Draws} {before : Load.Directory}
    (hrun : run.Proper limits spec none draws before draws') {outcome : Load.Outcome} (hreturned : run.outcome? = some outcome)
    (shared : Shared) : answerItem shared request (failureOf outcome) = runItem limits shared request := by
  have hprogress := hrun.progress
  rw [Load.Run.stage_of_outcome hreturned] at hprogress
  obtain ⟨outcome', hattempt⟩ := Load.attempt_of_settled limits (spec_of_settled h hspec)
  have hdecided := hprogress.attemptWith_eq
  rw [Load.attemptWith, hattempt] at hdecided
  obtain rfl : outcome' = outcome := (Prod.mk.inj hdecided).1
  have hnow : Load.attemptWith limits spec none shared.draws = (outcome', none, shared.draws) := by rw [Load.attemptWith, hattempt]
  rw [runItem_of_attempt hspec hnow]

/-! ## Steps of calls -/

/-- A call that runs settled items only, as far as it has them. -/
structure Call.IsSettled (call : Call) : Prop where
  running : ∀ request, call.stage = .running request → request.IsSettled
  repeated : ∀ request left, call.shape = .repeated request left → request.IsSettled

theorem Call.isSettled_finished {call : Call} (h : call.IsSettled) {shape : Shape} (hshape : shape = call.shape) (outcome : Except Status Reply) :
    (Call.finished shape outcome).IsSettled where
  running _ hstage := by cases hstage
  repeated request left heq := h.repeated request left (hshape.symm.trans heq)

theorem Call.isSettled_afterRun {shape : Shape} (h : ∀ request left, shape = .repeated request left → request.IsSettled)
    (request : WorkRequest) (response : WorkResponse) : (Call.afterRun request response shape).IsSettled where
  running other hstage := by cases shape <;> cases hstage
  repeated other left heq := by
    cases shape with
    | repeated item times => exact h other left heq
    | _ => cases heq

/-- A peer that hands out settled requests only, as long as it is in states of this kind. -/
structure Peer.Settles {σ : Type} (peer : Peer σ) (kind : σ → Prop) : Prop where
  cancelled : ∀ s, kind s → kind (peer.cancelled s).2
  receive : ∀ s, kind s → kind (peer.receive s).2
  send : ∀ s response, kind s → kind (peer.send s response).2
  request : ∀ s, kind s → ∀ request, (peer.receive s).1 = some (.ok (some request)) → request.IsSettled

section

variable {σ : Type} {peer : Peer σ} {kind : σ → Prop} (limits : Load.Limits) (s : σ)

/-- A step that reads depends on nothing that the service shares, and runs nothing. -/
theorem Call.step_reads_of_settled (hpeer : peer.Settles kind) (hs : kind s) {shape : Shape} (hshape : ∀ item left, shape ≠ .repeated item left) :
    ∃ act next s', (∀ shared, Call.step peer limits ⟨shape, .head⟩ shared s = (act, next, shared, s')) ∧ next.IsSettled ∧ kind s' := by
  have hnext : ∀ stage, (∀ request, stage = .running request → request.IsSettled) → (Call.mk shape stage).IsSettled := fun stage h =>
    ⟨h, fun item left heq => absurd heq (hshape item left)⟩
  have hlooked := hpeer.cancelled s hs
  simp only [step_reads hshape]
  generalize peer.cancelled s = looked at hlooked
  obtain ⟨_ | _, s'⟩ := looked
  · have hreceived := hpeer.receive s' hlooked
    have hrequest := hpeer.request s' hlooked
    dsimp only
    generalize peer.receive s' = received at hreceived hrequest
    obtain ⟨_ | _ | _ | request, s''⟩ := received
    · exact ⟨_, _, _, fun _ => rfl, hnext _ (by simp), hreceived⟩
    · exact ⟨_, _, _, fun _ => rfl, hnext _ (by simp), hreceived⟩
    · exact ⟨_, _, _, fun _ => rfl, hnext _ (by simp), hreceived⟩
    · refine ⟨_, _, _, fun _ => rfl, hnext _ fun other hstage => ?_, hreceived⟩
      obtain rfl := CallStage.running.inj hstage
      exact hrequest _ rfl
  · exact ⟨_, _, _, fun _ => rfl, hnext _ (by simp), hlooked⟩

/-- What a step does is the same whoever else uses the service, and it leaves the call with settled items. -/
theorem Call.step_of_settled (hpeer : peer.Settles kind) (hs : kind s) {call : Call} (h : call.IsSettled) :
    ∃ act next posting s', (∀ shared, call.step peer limits shared s = (act, next, shared.post posting, s')) ∧ next.IsSettled ∧ kind s' := by
  obtain ⟨shape, stage⟩ := call
  cases stage with
  | ended outcome => exact ⟨_, _, .nothing, _, fun _ => rfl, h, hs⟩
  | running request =>
    obtain ⟨response, posting, hrun⟩ := runItem_of_settled limits (h.running request rfl)
    refine ⟨some (.ran response), .afterRun request response shape, posting, s, fun shared => ?_,
      Call.isSettled_afterRun h.repeated request response, hs⟩
    simp only [step, hrun]
  | sending response =>
    have hsent := hpeer.send s response hs
    rcases hsend : peer.send s response with ⟨status | _, s'⟩ <;> rw [hsend] at hsent
    · exact ⟨_, _, .nothing, _, fun shared => by simp only [step, hsend]; rfl, Call.isSettled_finished h rfl (.error status), hsent⟩
    · exact ⟨_, ⟨shape, .head⟩, .nothing, _, fun shared => by simp only [step, hsend]; rfl, ⟨by simp, h.repeated⟩, hsent⟩
  | head =>
    have hreads (hshape : ∀ item left, shape ≠ .repeated item left) : ∃ act next posting s',
        (∀ shared, Call.step peer limits ⟨shape, .head⟩ shared s = (act, next, shared.post posting, s')) ∧ next.IsSettled ∧ kind s' := by
      obtain ⟨act, next, s', hstep, hnext⟩ := Call.step_reads_of_settled limits s hpeer hs hshape
      exact ⟨act, next, .nothing, s', hstep, hnext⟩
    cases shape with
    | unary => exact hreads (by simp)
    | tally summary => exact hreads (by simp)
    | exchange => exact hreads (by simp)
    | repeated item left =>
      have hitem := h.repeated item left rfl
      cases left with
      | zero => exact ⟨_, _, .nothing, _, fun _ => rfl, Call.isSettled_finished h rfl (.ok .nothing), hs⟩
      | succ left =>
        have hlooked := hpeer.cancelled s hs
        rcases hcancelled : peer.cancelled s with ⟨_ | _, s'⟩ <;> rw [hcancelled] at hlooked
        · obtain ⟨response, posting, hrun⟩ := runItem_of_settled limits hitem
          refine ⟨some (.ran response), ⟨.repeated item left, .sending response⟩, posting, s', fun shared => ?_,
            ⟨by simp, fun other times heq => ?_⟩, hlooked⟩
          · simp only [step, hcancelled, hrun]
          · obtain ⟨rfl, -⟩ := Shape.repeated.inj heq
            exact hitem
        · exact ⟨_, _, .nothing, _, fun shared => by simp only [step, hcancelled]; rfl,
            Call.isSettled_finished h rfl (.error .callCancelled), hlooked⟩

end

end Service

end LoadGenerator
