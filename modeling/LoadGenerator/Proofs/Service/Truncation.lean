import LoadGenerator.Proofs.Service.Cancellation

/-!
# What cancellation leaves of a call

Cancellation cuts a call short. What the call has done by then, what it has drawn and what it has sent are as they would be without it. A call of one request is not cut short at all, and one that repeats a request succeeds just if it has sent all its responses.
-/

namespace LoadGenerator.Service

open Message

variable {σ : Type} {limits : Load.Limits} {feed : Feed σ} {cancelled : Bool}

/-! ## What a call reports -/

/-- A number of steps of a call whose token is never cancelled. -/
abbrev Call.alone (limits : Load.Limits) (feed : Feed σ) (call : Call) (shared : Shared) (s : σ) (steps : Nat) :
    List Act × Call × Shared × σ :=
  Call.run (feed.peer false) limits steps call shared s

/-- What cancellation leaves of a call that has started like this, after these events. -/
structure Truncated (limits : Load.Limits) (feed : Feed σ) (call : Call) (shared : Shared) (s : σ) (ongoing : Ongoing σ) : Prop where
  /-- The call does what it does alone, and if it sees its token cancelled then that is the last thing it does. -/
  acts : (∃ steps, ongoing.acts = (call.alone limits feed shared s steps).1) ∨
    (∃ steps, ongoing.acts = (call.alone limits feed shared s steps).1 ++ [.sawCancelled]) ∧ ongoing.cancelled = true ∧
      ongoing.item? = none ∧ ongoing.call.outcome? = some (.error .callCancelled)
  sent : ∀ steps, ongoing.acts.length ≤ steps →
    ongoing.acts.filterMap Act.sent? <+: (call.alone limits feed shared s steps).1.filterMap Act.sent?
  /-- It ends as it would alone, or it is cancelled. -/
  outcome : ∀ outcome, ongoing.call.outcome? = some outcome →
    (∃ steps, (call.alone limits feed shared s steps).2.1.outcome? = some outcome ∧
      ongoing.acts = (call.alone limits feed shared s steps).1) ∨
      outcome = .error .callCancelled ∧ .sawCancelled ∈ ongoing.acts
  /-- The draws are those that it has left alone after the same runs, or after the one more that it waits for. -/
  draws : ∃ steps, ongoing.shared.draws = (call.alone limits feed shared s steps).2.2.1.draws ∧
    ((call.alone limits feed shared s steps).1.filterMap Act.ran? = ongoing.acts.filterMap Act.ran? ∨
      ongoing.item?.isSome = true ∧ ∃ response,
        (call.alone limits feed shared s steps).1.filterMap Act.ran? = ongoing.acts.filterMap Act.ran? ++ [response])
  /-- It can end if its token is cancelled, and if it ends alone. -/
  ends : (ongoing.cancelled = true ∨ ∃ steps, (call.alone limits feed shared s steps).2.1.outcome?.isSome = true) →
    ongoing.CanEnd limits feed

variable {call : Call} {shared : Shared} {s : σ} {ongoing : Ongoing σ}

theorem Call.Reaches.alone_eq {acts : List Act} {state : Call × Shared × σ} (h : Call.Reaches limits feed call shared s acts state) :
    call.alone limits feed shared s acts.length = (acts, state) := h

theorem Ongoing.Truncates.truncated (h : ongoing.Truncates limits feed call shared s) : Truncated limits feed call shared s ongoing where
  acts := by
    cases h with
    | level hreaches => exact .inl ⟨_, by rw [hreaches.alone_eq]⟩
    | within before earlier request shape spec run directory hreaches => exact .inl ⟨_, by rw [hreaches.alone_eq]⟩
    | cut before acts hreaches hhead hacts hcall hitem hcancelled =>
      exact .inr ⟨⟨_, by rw [hreaches.alone_eq, hacts]⟩, hcancelled, hitem, by rw [hcall]; rfl⟩
  sent := by
    intro steps hsteps
    cases h with
    | level hreaches => exact (hreaches.acts_le hsteps).filterMap _
    | within before earlier request shape spec run directory hreaches => exact (hreaches.acts_le hsteps).filterMap _
    | cut before acts hreaches hhead hacts hcall hitem hcancelled =>
      rw [hacts, List.length_append] at hsteps
      rw [hacts, List.filterMap_append, show [Act.sawCancelled].filterMap Act.sent? = [] from rfl, List.append_nil]
      exact (hreaches.acts_le (Nat.le_of_add_right_le hsteps)).filterMap Act.sent?
  outcome := by
    intro outcome houtcome
    cases h with
    | level hreaches => exact .inl ⟨_, by rw [hreaches.alone_eq, houtcome], by rw [hreaches.alone_eq]⟩
    | within before earlier request shape spec run directory hreaches hnext hcall =>
      rw [hcall] at houtcome
      cases houtcome
    | cut before acts hreaches hhead hacts hcall =>
      rw [hcall] at houtcome
      exact .inr ⟨(Option.some.inj houtcome).symm, by rw [hacts]; exact List.mem_append_right _ (List.mem_singleton_self _)⟩
  draws := by
    cases h with
    | level hreaches => exact ⟨_, by rw [hreaches.alone_eq], .inl (by rw [hreaches.alone_eq])⟩
    | within before earlier request shape spec run directory hreaches hnext hcall hitem hspec hrun =>
      obtain hbefore | hafter := hrun.progress.left_cases
      · exact ⟨_, by rw [hreaches.alone_eq]; exact (Prod.mk.inj hbefore).2, .inl (by rw [hreaches.alone_eq])⟩
      · have hnow := hreaches.step (Call.step_of_nextItem limits feed hnext earlier ongoing.peer)
        have hdraws : ongoing.shared.draws = (runItem limits earlier request).2.draws := by
          rw [draws_runItem hspec, ← hafter]
        refine ⟨_, by rw [hnow.alone_eq]; exact hdraws, .inr ⟨by rw [hitem]; rfl, ?_⟩⟩
        exact ⟨(runItem limits earlier request).1, by rw [hnow.alone_eq]; simp [Act.ran?]⟩
    | cut before acts hreaches hhead hacts =>
      exact ⟨_, by rw [hreaches.alone_eq], .inl (by rw [hreaches.alone_eq, hacts]; simp [Act.ran?])⟩
  ends := by
    rintro (hcancelled | ⟨steps, hended⟩)
    · exact h.canEnd_of_cancelled hcancelled
    · exact h.canEnd_of_ends steps hended

/-! ## Calls of one request -/

theorem runItems_replicate_succ (limits : Load.Limits) (shared : Shared) (item : WorkRequest) (times : Nat) :
    runItems limits shared (List.replicate (times + 1) item) =
      ((runItems limits shared (List.replicate times item)).1 ++
          [(runItem limits (runItems limits shared (List.replicate times item)).2 item).1],
        (runItem limits (runItems limits shared (List.replicate times item)).2 item).2) := by
  rw [List.replicate_succ', runItems_append]
  rfl

/-- Where a call stands that repeats an item and is left alone. -/
inductive Repeats (limits : Load.Limits) (feed : Feed σ) (shared : Shared) (item : WorkRequest) (times : Nat) (acts : List Act) (next : Call)
    (after : Shared) : Prop where
  | head (done left : Nat) (h : done + left = times)
      (hsent : acts.filterMap Act.sent? = (runItems limits shared (List.replicate done item)).1)
      (hnext : next = ⟨.repeated item left, .head⟩) (hafter : after = (runItems limits shared (List.replicate done item)).2)
  | sending (done left : Nat) (response : WorkResponse) (h : done + 1 + left = times)
      (hsent : acts.filterMap Act.sent? = (runItems limits shared (List.replicate done item)).1)
      (hnext : next = ⟨.repeated item left, .sending response⟩)
      (hafter : runItems limits shared (List.replicate (done + 1) item) =
        ((runItems limits shared (List.replicate done item)).1 ++ [response], after))
  | completed (hsent : acts.filterMap Act.sent? = (runItems limits shared (List.replicate times item)).1)
      (hnext : next = .finished (.repeated item 0) (.ok .nothing))
  | failed (done left : Nat) (status : Status) (h : done + 1 + left = times)
      (hsent : acts.filterMap Act.sent? = (runItems limits shared (List.replicate done item)).1)
      (hnext : next = .finished (.repeated item left) (.error status)) (hfailed : ∃ s response, (feed.send s response).1 = .error status)

variable {item : WorkRequest} {times : Nat}

theorem Repeats.step {acts : List Act} {next : Call} {after : Shared} {s' : σ} {act : Act} {state : Call × Shared × σ}
    (h : Repeats limits feed shared item times acts next after) (hstep : next.step (feed.peer false) limits after s' = (some act, state)) :
    Repeats limits feed shared item times (acts ++ [act]) state.1 state.2.1 := by
  have hsilent {act : Act} (hact : act.sent? = none) : (acts ++ [act]).filterMap Act.sent? = acts.filterMap Act.sent? := by
    simp [hact]
  cases h with
  | head done left h hsent hnext hafter =>
    subst hnext
    cases left with
    | zero =>
      cases hstep
      obtain rfl : done = times := h
      exact .completed ((hsilent rfl).trans hsent) rfl
    | succ left =>
      cases hstep
      have hmore := runItems_replicate_succ limits shared item done
      rw [← hafter] at hmore
      exact .sending done left _ (by omega) ((hsilent rfl).trans hsent) rfl hmore
  | sending done left response h hsent hnext hafter =>
    subst hnext
    rw [Call.step_send] at hstep
    rcases hsend : feed.send s' response with ⟨status | _, s''⟩ <;> rw [hsend] at hstep <;> cases hstep
    · exact .failed done left status h ((hsilent rfl).trans hsent) rfl ⟨s', response, by rw [hsend]⟩
    · refine .head (done + 1) left h ?_ rfl (by rw [hafter])
      rw [List.filterMap_append, hsent, hafter]
      rfl
  | completed hsent hnext =>
    subst hnext
    cases hstep
  | failed done left status h hsent hnext =>
    subst hnext
    cases hstep

theorem Repeats.of_reaches {acts : List Act} {next : Call} {after : Shared} {s' : σ}
    (h : Call.Reaches limits feed ⟨.repeated item times, .head⟩ shared s acts (next, after, s')) :
    Repeats limits feed shared item times acts next after :=
  h.keeps (P := fun acts state => Repeats limits feed shared item times acts state.1 state.2.1)
    (fun _ _ _ _ _ _ hrepeats hstep => hrepeats.step hstep) (.head 0 times (Nat.zero_add times) rfl rfl rfl)

/-- A call that repeats an item ends if it is left alone. -/
theorem repeated_ends (limits : Load.Limits) (feed : Feed σ) (item : WorkRequest) (times : Nat) (shared : Shared) (s : σ) :
    ∃ steps, (Call.alone limits feed ⟨.repeated item times, .head⟩ shared s steps).2.1.outcome?.isSome = true := by
  induction times generalizing shared s with
  | zero => exact ⟨1, rfl⟩
  | succ times ih =>
    have hran : Call.step (feed.peer false) limits ⟨.repeated item (times + 1), .head⟩ shared s =
        (some (.ran (runItem limits shared item).1), ⟨.repeated item times, .sending (runItem limits shared item).1⟩,
          (runItem limits shared item).2, s) := rfl
    rcases hsend : feed.send s (runItem limits shared item).1 with ⟨status | _, s'⟩
    · refine ⟨2, ?_⟩
      rw [Call.alone, Call.run_step limits shared hran, Call.run_step limits _ (by rw [Call.step_send, hsend])]
      rfl
    · obtain ⟨steps, hended⟩ := ih (runItem limits shared item).2 s'
      refine ⟨steps + 1 + 1, ?_⟩
      rw [Call.alone, Call.run_step limits shared hran, Call.run_step limits _ (by rw [Call.step_send, hsend])]
      exact hended

theorem Repeats.sent_eq {acts : List Act} {next : Call} {after : Shared} (h : Repeats limits feed shared item times acts next after) :
    ∃ done ≤ times, acts.filterMap Act.sent? = (runItems limits shared (List.replicate done item)).1 := by
  cases h with
  | head done left h hsent => exact ⟨done, by omega, hsent⟩
  | sending done left response h hsent => exact ⟨done, by omega, hsent⟩
  | completed hsent => exact ⟨times, Nat.le_refl _, hsent⟩
  | failed done left status h hsent => exact ⟨done, by omega, hsent⟩

/-- What a call that repeats an item reports at its end: that all responses were sent, that it was cancelled before, or that its sink failed. -/
theorem Ongoing.Truncates.repeated_outcome (h : ongoing.Truncates limits feed ⟨.repeated item times, .head⟩ shared s)
    {outcome : Except Status Reply} (houtcome : ongoing.call.outcome? = some outcome) :
    (∃ done ≤ times, ongoing.acts.filterMap Act.sent? = (runItems limits shared (List.replicate done item)).1 ∧
      (outcome = .ok .nothing ∧ done = times ∨
        done < times ∧ (outcome = .error .callCancelled ∨
          ∃ s response status, (feed.send s response).1 = .error status ∧ outcome = .error status))) := by
  cases h with
  | level hreaches =>
    cases Repeats.of_reaches hreaches with
    | head done left h hsent hnext =>
      rw [hnext] at houtcome
      cases houtcome
    | sending done left response h hsent hnext =>
      rw [hnext] at houtcome
      cases houtcome
    | completed hsent hnext =>
      rw [hnext] at houtcome
      exact ⟨times, Nat.le_refl _, hsent, .inl ⟨(Option.some.inj houtcome).symm, rfl⟩⟩
    | failed done left status h hsent hnext hfailed =>
      rw [hnext] at houtcome
      obtain ⟨s', response, hfailed⟩ := hfailed
      exact ⟨done, by omega, hsent, .inr ⟨by omega, .inr ⟨s', response, status, hfailed, (Option.some.inj houtcome).symm⟩⟩⟩
  | within before earlier request shape spec run directory hreaches hnext hcall =>
    rw [hcall] at houtcome
    cases houtcome
  | cut before acts hreaches hhead hacts hcall =>
    rw [hcall] at houtcome
    have hsame : ongoing.acts.filterMap Act.sent? = acts.filterMap Act.sent? := by
      rw [hacts, List.filterMap_append]
      exact List.append_nil _
    cases Repeats.of_reaches hreaches with
    | head done left h hsent hnext =>
      have hleft : left ≠ 0 := by
        rintro rfl
        exact hhead.2 item (by rw [hnext])
      exact ⟨done, by omega, hsame.trans hsent, .inr ⟨by omega, .inl (Option.some.inj houtcome).symm⟩⟩
    | sending done left response h hsent hnext =>
      rw [hnext] at hhead
      cases hhead.1
    | completed hsent hnext =>
      rw [hnext] at hhead
      cases hhead.1
    | failed done left status h hsent hnext =>
      rw [hnext] at hhead
      cases hhead.1

theorem Ongoing.Truncates.repeated_sent (h : ongoing.Truncates limits feed ⟨.repeated item times, .head⟩ shared s) :
    ongoing.acts.filterMap Act.sent? <+: (runItems limits shared (List.replicate times item)).1 := by
  obtain ⟨done, hdone, hsent⟩ : ∃ done ≤ times,
      ongoing.acts.filterMap Act.sent? = (runItems limits shared (List.replicate done item)).1 := by
    cases h with
    | level hreaches => exact (Repeats.of_reaches hreaches).sent_eq
    | within before earlier request shape spec run directory hreaches => exact (Repeats.of_reaches hreaches).sent_eq
    | cut before acts hreaches hhead hacts =>
      rw [hacts, List.filterMap_append]
      exact (List.append_nil (acts.filterMap Act.sent?)).symm ▸ (Repeats.of_reaches hreaches).sent_eq
  obtain ⟨left, rfl⟩ := Nat.exists_eq_add_of_le hdone
  rw [hsent, List.replicate_add, runItems_append]
  exact List.prefix_append _ _

/-- A call of one request does nothing but run it. -/
theorem unary_of_reaches {request : WorkRequest} {acts : List Act} {state : Call × Shared × σ}
    (h : Call.Reaches limits feed (.unary request) shared s acts state) :
    state = (.unary request, shared, s) ∨
      state = (.finished .unary (.ok (.work (runItem limits shared request).1)), (runItem limits shared request).2, s) := by
  refine h.keeps (P := fun _ state => state = (.unary request, shared, s) ∨
    state = (.finished .unary (.ok (.work (runItem limits shared request).1)), (runItem limits shared request).2, s)) ?_ (.inl rfl)
  rintro acts call shared' s' act state (hstart | hended) hstep
  · cases hstart
    cases hstep
    exact .inr rfl
  · cases hended
    cases hstep

theorem Ongoing.Truncates.unary_outcome {request : WorkRequest} (h : ongoing.Truncates limits feed (.unary request) shared s)
    {outcome : Except Status Reply} (houtcome : ongoing.call.outcome? = some outcome) :
    outcome = .ok (.work (runItem limits shared request).1) ∧ ongoing.shared = (runItem limits shared request).2 := by
  cases h with
  | level hreaches =>
    obtain hstart | hended := unary_of_reaches hreaches
    · rw [(Prod.mk.inj hstart).1] at houtcome
      cases houtcome
    · obtain ⟨hcall, hafter⟩ := Prod.mk.inj hended
      rw [hcall] at houtcome
      exact ⟨(Option.some.inj houtcome).symm, (Prod.mk.inj hafter).1⟩
  | within before earlier request shape spec run directory hreaches hnext hcall =>
    rw [hcall] at houtcome
    cases houtcome
  | cut before acts hreaches hhead =>
    obtain hstart | hended := unary_of_reaches hreaches
    · rw [(Prod.mk.inj hstart).1] at hhead
      cases hhead.1
    · rw [(Prod.mk.inj hended).1] at hhead
      cases hhead.1

/-- Cancellation, at whatever moment, cuts a call short and changes nothing of what it has reported by then.

Every call does, draws and sends what it would if it was left alone, until it ends or sees its token cancelled, which is then the last thing that it does: it ends with the result that it has alone, a summary among them, or as cancelled. A call of one request responds as it would alone. A call that repeats a request sends a beginning of the responses, succeeds just if it has sent them all, and otherwise ends as cancelled unless its sink has failed. Both end, and so does any other call that is cancelled or that ends alone. -/
theorem cancellation_truncates (limits : Load.Limits) (feed : Feed σ) (shared : Shared) (directory : Load.Directory) (s : σ)
    (cancelled : Bool) (events : List OngoingEvent) :
    let after (call : Call) : Ongoing σ := { call, cancelled, shared, directory, peer := s : Ongoing σ }.applyAll limits feed events
    (∀ call, (after call).cancelled = (cancelled || events.contains .cancel) ∧ Truncated limits feed call shared s (after call)) ∧
    (∀ request, (after (.unary request)).CanEnd limits feed ∧
      ∀ outcome, (after (.unary request)).call.outcome? = some outcome →
        outcome = .ok (.work (runItem limits shared request).1) ∧
          (after (.unary request)).shared.draws = (runItem limits shared request).2.draws) ∧
    (∀ request : RepeatRequest, 0 < request.times →
      let responses := (runItems limits shared (List.replicate request.times.toNatClampNeg ⟨request.requestId, request.config⟩)).1
      (after (.repeated request)).CanEnd limits feed ∧
      (after (.repeated request)).acts.filterMap Act.sent? <+: responses ∧
      ∀ outcome, (after (.repeated request)).call.outcome? = some outcome →
        (outcome = .ok .nothing ↔ (after (.repeated request)).acts.filterMap Act.sent? = responses) ∧
          (outcome = .ok .nothing ∨ outcome = .error .callCancelled ∨
            ∃ s response status, (feed.send s response).1 = .error status ∧ outcome = .error status)) := by
  have htruncates (call : Call) : ({ call, cancelled, shared, directory, peer := s : Ongoing σ }.applyAll limits feed events).Truncates
      limits feed call shared s :=
    Ongoing.Truncates.applyAll (.level (Call.Reaches.start limits feed call shared s) rfl) events
  refine ⟨?_, ?_, ?_⟩
  · intro call
    exact ⟨Ongoing.cancelled_applyAll limits feed _ events, (htruncates call).truncated⟩
  · intro request
    refine ⟨(htruncates (.unary request)).canEnd_of_ends 1 rfl, ?_⟩
    intro outcome houtcome
    obtain ⟨hresponse, hshared⟩ := (htruncates (.unary request)).unary_outcome houtcome
    exact ⟨hresponse, by rw [hshared]⟩
  · intro request htimes responses
    have hpositive : ¬ request.times ≤ 0 := Int32.not_le.mpr htimes
    have hstart : Call.repeated request = ⟨.repeated ⟨request.requestId, request.config⟩ request.times.toNatClampNeg, .head⟩ :=
      if_neg hpositive
    have h := htruncates (.repeated request)
    rw [hstart] at h ⊢
    obtain ⟨steps, hended⟩ := repeated_ends limits feed ⟨request.requestId, request.config⟩ request.times.toNatClampNeg shared s
    refine ⟨h.canEnd_of_ends steps hended, h.repeated_sent, ?_⟩
    intro outcome houtcome
    obtain ⟨done, hdone, hsent, ⟨rfl, rfl⟩ | ⟨hless, hfailed⟩⟩ := h.repeated_outcome houtcome
    · exact ⟨iff_of_true rfl hsent, .inl rfl⟩
    · refine ⟨iff_of_false ?_ ?_, .inr hfailed⟩
      · rintro rfl
        obtain hcancelled | ⟨s', response, status, -, hstatus⟩ := hfailed
        · cases hcancelled
        · cases hstatus
      · intro hall
        have hlength := congrArg List.length (hsent.symm.trans hall)
        simp only [responses, length_runItems, List.length_replicate] at hlength
        omega

/-- A call of two memory runs whose token is cancelled within the first: the run returns and its response is sent, and then the call ends as cancelled. -/
theorem cancellation_truncates_within_run :
    let config : WorkConfig := { mode := 2, durationMs := 20, allocMb := 1 }
    let request : RepeatRequest := { requestId := "r", config := some config, times := 2 }
    let shared : Shared := { draws := .always .zero }
    let feed : Feed Unit := ⟨fun _ => (.ok none, ()), fun _ _ => (.ok (), ())⟩
    let events : List OngoingEvent := [.step, .run .resume, .run .launch, .cancel, .run (.move 0 .step), .run (.move 0 .step),
      .run (.join 0), .run .conclude, .step, .step, .step]
    let ongoing := { call := .repeated request, cancelled := false, shared, directory := some [], peer := () : Ongoing Unit }.applyAll
      .unbounded feed events
    0 < request.times ∧ ongoing.acts = [.ran ⟨"r", true, ""⟩, .sent ⟨"r", true, ""⟩, .sawCancelled] ∧
      ongoing.acts.filterMap Act.sent? <+: (runItems .unbounded shared (List.replicate 2 ⟨"r", some config⟩)).1 ∧
      ∀ outcome, ongoing.call.outcome? = some outcome → outcome = .error .callCancelled := by
  intro config request shared feed events ongoing
  have htimes : 0 < request.times := by decide
  have hacts : ongoing.acts = [.ran ⟨"r", true, ""⟩, .sent ⟨"r", true, ""⟩, .sawCancelled] := by decide +kernel
  obtain ⟨-, -, hrepeated⟩ := cancellation_truncates .unbounded feed shared (some []) () false events
  obtain ⟨-, hsent, hends⟩ := hrepeated request htimes
  refine ⟨htimes, hacts, hsent, ?_⟩
  intro outcome houtcome
  obtain ⟨hall, hok | hcancelled | ⟨s, response, status, hsink, -⟩⟩ := hends outcome houtcome
  · have hlength := congrArg List.length (hall.mp hok)
    rw [length_runItems] at hlength
    change (ongoing.acts.filterMap Act.sent?).length = 2 at hlength
    rw [hacts] at hlength
    cases hlength
  · exact hcancelled
  · cases hsink

end LoadGenerator.Service
