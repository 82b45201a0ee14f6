import LoadGenerator.Proofs.Service.Items
import LoadGenerator.Service.Script

/-!
# The four shapes of a call

Over a peer that neither cancels nor refuses, each shape of call is the same computation: the runs of its requests, one after another, on what the service shares. The shapes differ in what they make of the responses, which are returned one by one, sent, or tallied.
-/

namespace LoadGenerator.Service

open Message

/-- A peer whose token is not cancelled, whose sink takes every response, and which in a state that `feeds` a list hands out that list. -/
structure Peer.Obliging {σ : Type} (peer : Peer σ) (feeds : σ → List WorkRequest → Prop) : Prop where
  token {s requests} : feeds s requests → ∃ s', peer.cancelled s = (false, s') ∧ feeds s' requests
  item {s request rest} : feeds s (request :: rest) →
    ∃ s', peer.receive s = (some (.ok (some request)), s') ∧ feeds s' rest
  finish {s} : feeds s [] → ∃ s', peer.receive s = (some (.ok none), s') ∧ feeds s' []
  sink {s requests} (response) : feeds s requests → ∃ s', peer.send s response = (.ok (), s') ∧ feeds s' requests

variable {σ : Type} {peer : Peer σ} {feeds : σ → List WorkRequest → Prop} {s : σ} {requests : List WorkRequest}
  (limits : Load.Limits) (shared : Shared)

/-- The response of a run that a step made. -/
def Act.ran? : Act → Option WorkResponse
  | .ran response => some response
  | _ => none

/-- The response that a step sent. -/
def Act.sent? : Act → Option WorkResponse
  | .sent response => some response
  | _ => none

/-- Calls of the unary shape for the requests in turn, each to its end, and the outcomes of the calls. -/
def unaryCalls (peer : Peer σ) (limits : Load.Limits) :
    List WorkRequest → Shared → σ → List (Option (Except Status Reply)) × Shared × σ
  | [], shared, s => ([], shared, s)
  | request :: rest, shared, s =>
    let (_, call, shared, s) := Call.run peer limits 2 (.unary request) shared s
    let (outcomes, after) := unaryCalls peer limits rest shared s
    (call.outcome? :: outcomes, after)

namespace Call

/-! ### What a call does in a number of steps -/

theorem run_ended {call : Call} (hcall : call.outcome?.isSome) (fuel : Nat) :
    run peer limits fuel call shared s = ([], call, shared, s) := by
  obtain ⟨shape, stage⟩ := call
  cases stage with
  | ended outcome =>
    cases fuel with
    | zero => rfl
    | succ fuel => simp only [run, step]
  | head => cases hcall
  | running request => cases hcall
  | sending response => cases hcall

/-- A step that does something comes in front of the steps after it. -/
theorem run_step {call next : Call} {act : Act} {shared' : Shared} {s' : σ}
    (hstep : step peer limits call shared s = (some act, next, shared', s')) (fuel : Nat) :
    run peer limits (fuel + 1) call shared s =
      (act :: (run peer limits fuel next shared' s').1, (run peer limits fuel next shared' s').2) := by
  rw [run, hstep]

theorem step_item (hpeer : peer.Obliging feeds) {request : WorkRequest} (hs : feeds s (request :: requests))
    (shape : Shape) (hshape : ∀ item left, shape ≠ .repeated item left) :
    ∃ s', step peer limits ⟨shape, .head⟩ shared s = (some (.received request), ⟨shape, .running request⟩, shared, s') ∧
      feeds s' requests := by
  obtain ⟨s₁, htoken, hs₁⟩ := hpeer.token hs
  obtain ⟨s₂, hitem, hs₂⟩ := hpeer.item hs₁
  refine ⟨s₂, ?_, hs₂⟩
  cases shape with
  | repeated item left => exact absurd rfl (hshape item left)
  | unary => simp only [step, htoken, hitem]
  | tally summary => simp only [step, htoken, hitem]
  | exchange => simp only [step, htoken, hitem]

theorem step_finish (hpeer : peer.Obliging feeds) (hs : feeds s [])
    (shape : Shape) (hshape : ∀ item left, shape ≠ .repeated item left) :
    ∃ s', step peer limits ⟨shape, .head⟩ shared s =
        (some .streamEnded, finished shape (.ok (streamReply shape)), shared, s') := by
  obtain ⟨s₁, htoken, hs₁⟩ := hpeer.token hs
  obtain ⟨s₂, hfinish, -⟩ := hpeer.finish hs₁
  refine ⟨s₂, ?_⟩
  cases shape with
  | repeated item left => exact absurd rfl (hshape item left)
  | unary => simp only [step, htoken, hfinish]
  | tally summary => simp only [step, htoken, hfinish]
  | exchange => simp only [step, htoken, hfinish]

theorem step_running_unary (request : WorkRequest) :
    step peer limits ⟨.unary, .running request⟩ shared s =
      (some (.ran (runItem limits shared request).1),
        finished .unary (.ok (.work (runItem limits shared request).1)), (runItem limits shared request).2, s) := rfl

theorem step_running_tally (summary : WorkSummary) (request : WorkRequest) :
    step peer limits ⟨.tally summary, .running request⟩ shared s =
      (some (.ran (runItem limits shared request).1),
        ⟨.tally (tallyItem summary request (runItem limits shared request).1), .head⟩,
        (runItem limits shared request).2, s) := rfl

theorem step_running_exchange (request : WorkRequest) :
    step peer limits ⟨.exchange, .running request⟩ shared s =
      (some (.ran (runItem limits shared request).1), ⟨.exchange, .sending (runItem limits shared request).1⟩,
        (runItem limits shared request).2, s) := rfl

theorem step_sending (hpeer : peer.Obliging feeds) (hs : feeds s requests) (shape : Shape) (response : WorkResponse) :
    ∃ s', step peer limits ⟨shape, .sending response⟩ shared s = (some (.sent response), ⟨shape, .head⟩, shared, s') ∧
      feeds s' requests := by
  obtain ⟨s', hsink, hs'⟩ := hpeer.sink response hs
  exact ⟨s', by simp only [step, hsink], hs'⟩

theorem step_repeated (hpeer : peer.Obliging feeds) (hs : feeds s requests) (request : WorkRequest) (left : Nat) :
    ∃ s', step peer limits ⟨.repeated request (left + 1), .head⟩ shared s =
        (some (.ran (runItem limits shared request).1),
          ⟨.repeated request left, .sending (runItem limits shared request).1⟩, (runItem limits shared request).2, s') ∧
      feeds s' requests := by
  obtain ⟨s', htoken, hs'⟩ := hpeer.token hs
  exact ⟨s', by simp only [step, htoken], hs'⟩

theorem step_repeated_done (request : WorkRequest) :
    step peer limits ⟨.repeated request 0, .head⟩ shared s =
      (some .completed, finished (.repeated request 0) (.ok .nothing), shared, s) := rfl

/-! ### Whole calls -/

theorem run_unary (request : WorkRequest) (fuel : Nat) :
    run peer limits (fuel + 1) (.unary request) shared s =
      ([.ran (runItem limits shared request).1], finished .unary (.ok (.work (runItem limits shared request).1)),
        (runItem limits shared request).2, s) := by
  rw [unary, run_step limits _ (step_running_unary limits shared request), run_ended limits _ rfl]

theorem run_exchange_items (hpeer : peer.Obliging feeds) (front back : List WorkRequest) (hs : feeds s (front ++ back)) :
    ∃ acts s', feeds s' back ∧
      acts.filterMap Act.ran? = (runItems limits shared front).1 ∧
      acts.filterMap Act.sent? = (runItems limits shared front).1 ∧
      ∀ fuel, run peer limits (fuel + 3 * front.length) exchange shared s =
        (acts ++ (run peer limits fuel exchange (runItems limits shared front).2 s').1,
          (run peer limits fuel exchange (runItems limits shared front).2 s').2) := by
  induction front generalizing shared s with
  | nil => exact ⟨[], s, hs, rfl, rfl, fun fuel => rfl⟩
  | cons request rest ih =>
    obtain ⟨s₁, hitem, hs₁⟩ := step_item limits shared hpeer hs .exchange (by simp)
    obtain ⟨s₂, hsend, hs₂⟩ := step_sending limits (runItem limits shared request).2 hpeer hs₁ .exchange (runItem limits shared request).1
    obtain ⟨acts, s', hs', hran, hsent, hrun⟩ := ih (runItem limits shared request).2 hs₂
    refine ⟨.received request :: .ran (runItem limits shared request).1 :: .sent (runItem limits shared request).1 :: acts,
      s', hs', ?_, ?_, ?_⟩
    · simp [List.filterMap_cons, Act.ran?, hran, runItems_cons]
    · simp [List.filterMap_cons, Act.sent?, hsent, runItems_cons]
    · intro fuel
      have hfuel : fuel + 3 * (request :: rest).length = fuel + 3 * rest.length + 1 + 1 + 1 := by
        rw [List.length_cons]
        omega
      rw [exchange] at hrun ⊢
      rw [hfuel, run_step limits _ hitem, run_step limits _ (step_running_exchange limits shared request), run_step limits _ hsend, hrun, runItems_cons]
      simp only [List.cons_append]

theorem run_tally_items (hpeer : peer.Obliging feeds) (front back : List WorkRequest) (hs : feeds s (front ++ back))
    (summary : WorkSummary) :
    ∃ acts s', feeds s' back ∧
      acts.filterMap Act.ran? = (runItems limits shared front).1 ∧ acts.filterMap Act.sent? = [] ∧
      ∀ fuel, run peer limits (fuel + 2 * front.length) ⟨.tally summary, .head⟩ shared s =
        (acts ++ (run peer limits fuel ⟨.tally (tallyItems summary front (runItems limits shared front).1), .head⟩
            (runItems limits shared front).2 s').1,
          (run peer limits fuel ⟨.tally (tallyItems summary front (runItems limits shared front).1), .head⟩
            (runItems limits shared front).2 s').2) := by
  induction front generalizing shared s summary with
  | nil => exact ⟨[], s, hs, rfl, rfl, fun fuel => rfl⟩
  | cons request rest ih =>
    obtain ⟨s₁, hitem, hs₁⟩ :=
      step_item limits shared hpeer hs (.tally summary) (by simp)
    obtain ⟨acts, s', hs', hran, hsent, hrun⟩ := ih (runItem limits shared request).2 hs₁
      (tallyItem summary request (runItem limits shared request).1)
    refine ⟨.received request :: .ran (runItem limits shared request).1 :: acts, s', hs', ?_, ?_, ?_⟩
    · simp [List.filterMap_cons, Act.ran?, hran, runItems_cons]
    · simpa [List.filterMap_cons, Act.sent?] using hsent
    · intro fuel
      have hfuel : fuel + 2 * (request :: rest).length = fuel + 2 * rest.length + 1 + 1 := by
        rw [List.length_cons]
        omega
      rw [hfuel, run_step limits _ hitem, run_step limits _ (step_running_tally limits shared summary request), hrun, runItems_cons, tallyItems_cons]
      simp only [List.cons_append]

theorem run_repeated_items (hpeer : peer.Obliging feeds) (hs : feeds s requests) (request : WorkRequest)
    (times left : Nat) :
    ∃ acts s', feeds s' requests ∧
      acts.filterMap Act.ran? = (runItems limits shared (List.replicate times request)).1 ∧
      acts.filterMap Act.sent? = (runItems limits shared (List.replicate times request)).1 ∧
      ∀ fuel, run peer limits (fuel + 2 * times) ⟨.repeated request (left + times), .head⟩ shared s =
        (acts ++ (run peer limits fuel ⟨.repeated request left, .head⟩
            (runItems limits shared (List.replicate times request)).2 s').1,
          (run peer limits fuel ⟨.repeated request left, .head⟩
            (runItems limits shared (List.replicate times request)).2 s').2) := by
  induction times generalizing shared s with
  | zero => exact ⟨[], s, hs, rfl, rfl, fun fuel => rfl⟩
  | succ times ih =>
    obtain ⟨s₁, hran₁, hs₁⟩ := step_repeated limits shared hpeer hs request (left + times)
    obtain ⟨s₂, hsend, hs₂⟩ := step_sending limits (runItem limits shared request).2 hpeer hs₁ (.repeated request (left + times)) (runItem limits shared request).1
    obtain ⟨acts, s', hs', hran, hsent, hrun⟩ := ih (runItem limits shared request).2 hs₂
    refine ⟨.ran (runItem limits shared request).1 :: .sent (runItem limits shared request).1 :: acts, s', hs', ?_, ?_, ?_⟩
    · simp [List.filterMap_cons, Act.ran?, hran, runItems_cons, List.replicate_succ]
    · simp [List.filterMap_cons, Act.sent?, hsent, runItems_cons, List.replicate_succ]
    · intro fuel
      have hfuel : fuel + 2 * (times + 1) = fuel + 2 * times + 1 + 1 := by omega
      rw [hfuel, ← Nat.add_assoc, run_step limits _ hran₁, run_step limits _ hsend, hrun, List.replicate_succ, runItems_cons]
      simp only [List.cons_append]

/-- A call with a response to each request: three steps for a request, and one that finds the end. -/
theorem run_exchange (hpeer : peer.Obliging feeds) (hs : feeds s requests) {fuel : Nat}
    (hfuel : 3 * requests.length < fuel) :
    ∃ acts s', run peer limits fuel exchange shared s =
        (acts, finished .exchange (.ok .nothing), (runItems limits shared requests).2, s') ∧
      acts.filterMap Act.ran? = (runItems limits shared requests).1 ∧
      acts.filterMap Act.sent? = (runItems limits shared requests).1 := by
  obtain ⟨fuel, rfl⟩ : ∃ f, fuel = f + 1 + 3 * requests.length := ⟨fuel - 3 * requests.length - 1, by omega⟩
  obtain ⟨acts, s₁, hs₁, hran, hsent, hrun⟩ :=
    run_exchange_items limits shared hpeer requests [] (by rwa [List.append_nil])
  obtain ⟨s', hstep⟩ :=
    step_finish limits (runItems limits shared requests).2 hpeer hs₁ .exchange (by simp)
  refine ⟨acts ++ [.streamEnded], s', ?_, ?_, ?_⟩
  · rw [hrun, exchange, run_step limits _ hstep, run_ended limits _ rfl]
    rfl
  · simp [Act.ran?, hran]
  · simp [Act.sent?, hsent]

/-- A call that tallies: two steps for a request, and one that finds the end. -/
theorem run_tally (hpeer : peer.Obliging feeds) (hs : feeds s requests) {fuel : Nat}
    (hfuel : 2 * requests.length < fuel) :
    ∃ acts s', run peer limits fuel tally shared s =
        (acts,
          finished (.tally (tallyItems {} requests (runItems limits shared requests).1))
            (.ok (.summary (tallyItems {} requests (runItems limits shared requests).1))),
          (runItems limits shared requests).2, s') ∧
      acts.filterMap Act.ran? = (runItems limits shared requests).1 := by
  obtain ⟨fuel, rfl⟩ : ∃ f, fuel = f + 1 + 2 * requests.length := ⟨fuel - 2 * requests.length - 1, by omega⟩
  obtain ⟨acts, s₁, hs₁, hran, -, hrun⟩ :=
    run_tally_items limits shared hpeer requests [] (by rwa [List.append_nil]) {}
  obtain ⟨s', hstep⟩ := step_finish limits (runItems limits shared requests).2 hpeer hs₁
    (.tally (tallyItems {} requests (runItems limits shared requests).1)) (by simp)
  refine ⟨acts ++ [.streamEnded], s', ?_, ?_⟩
  · rw [tally, hrun, run_step limits _ hstep, run_ended limits _ rfl]
    rfl
  · simp [Act.ran?, hran]

/-- A call that repeats: two steps for a time, and one that completes. -/
theorem run_repeated (hpeer : peer.Obliging feeds) (hs : feeds s requests) (request : WorkRequest) (times : Nat)
    {fuel : Nat} (hfuel : 2 * times < fuel) :
    ∃ acts s', run peer limits fuel ⟨.repeated request times, .head⟩ shared s =
        (acts, finished (.repeated request 0) (.ok .nothing),
          (runItems limits shared (List.replicate times request)).2, s') ∧
      acts.filterMap Act.ran? = (runItems limits shared (List.replicate times request)).1 ∧
      acts.filterMap Act.sent? = (runItems limits shared (List.replicate times request)).1 := by
  obtain ⟨fuel, rfl⟩ : ∃ f, fuel = f + 1 + 2 * times := ⟨fuel - 2 * times - 1, by omega⟩
  obtain ⟨acts, s', -, hran, hsent, hrun⟩ :=
    run_repeated_items limits shared hpeer hs request times 0
  rw [Nat.zero_add] at hrun
  refine ⟨acts ++ [.completed], s', ?_, ?_, ?_⟩
  · rw [hrun, run_step limits _ (step_repeated_done limits _ request), run_ended limits _ rfl]
  · simp [Act.ran?, hran]
  · simp [Act.sent?, hsent]

end Call

theorem unaryCalls_eq (requests : List WorkRequest) (s : σ) :
    unaryCalls peer limits requests shared s =
      ((runItems limits shared requests).1.map fun response => some (.ok (.work response)),
        (runItems limits shared requests).2, s) := by
  induction requests generalizing shared with
  | nil => rfl
  | cons request rest ih =>
    rw [unaryCalls, Call.run_unary, runItems_cons]
    simp only [ih, List.map_cons]
    rfl

theorem eq_runItems_of_unaryCalls {responses : List WorkResponse} {after : Shared}
    (h : unaryCalls peer limits requests shared s =
      (responses.map fun response => some (.ok (.work response)), after, s)) :
    responses = (runItems limits shared requests).1 := by
  have hinjective : Function.Injective fun response : WorkResponse => some (Except.ok (ε := Status) (Reply.work response)) := by
    intro a b hab
    simpa using hab
  rw [unaryCalls_eq] at h
  exact (List.map_injective_iff.mpr hinjective (congrArg Prod.fst h)).symm

/-- A script that only hands out its requests. -/
def Script.Feeds (script : Script) (requests : List WorkRequest) : Prop :=
  script.items = requests ∧ script.failure = none ∧ script.sinkFailure = none ∧ script.cancelAtReceive = none ∧
    script.cancelAfterSend = none ∧ script.cancelled = false

theorem Script.obliging : Script.peer.Obliging Script.Feeds where
  token {script requests} h := ⟨script, by simp only [Script.peer, h.2.2.2.2.2], h⟩
  item {script request rest} h := by
    obtain ⟨hitems, hfailure, hsink, hreceive, hsend, hcancelled⟩ := h
    simp only [Script.peer, Script.receive, hitems]
    exact ⟨_, rfl, rfl, hfailure, hsink, hreceive, hsend, by simp [hcancelled, hreceive]⟩
  finish {script} h := ⟨script, by simp only [Script.peer, Script.receive, h.1, h.2.1], h⟩
  sink {script requests} response h := by
    obtain ⟨hitems, hfailure, hsink, hreceive, hsend, hcancelled⟩ := h
    simp only [Script.peer, Script.send, hsink]
    exact ⟨_, rfl, hitems, hfailure, rfl, hreceive, hsend, by simp [hcancelled, hsend]⟩

/-- The four shapes of a call run the same items to the same responses. Over any list that the peer hands out, unary calls one after another, one call with a response to each request, and one call that tallies agree after every number of items on the responses, the draws and the counts; the second sends just the unary responses and the third counts them. A call that repeats a request sends what as many unary calls of that request respond. -/
theorem shapes_agree (hpeer : peer.Obliging feeds) :
    (∀ s requests, feeds s requests → requests.length < 2147483648 → ∃ responses after,
      unaryCalls peer limits requests shared s = (responses.map fun response => some (.ok (.work response)), after, s) ∧
      responses.length = requests.length ∧
      (∀ k ≤ requests.length, ∃ acts acts' summary s' s'',
        Call.run peer limits (3 * k) .exchange shared s =
          (acts, .exchange, (unaryCalls peer limits (requests.take k) shared s).2.1, s') ∧
        acts.filterMap Act.ran? = responses.take k ∧ acts.filterMap Act.sent? = responses.take k ∧
        Call.run peer limits (2 * k) .tally shared s =
          (acts', ⟨.tally summary, .head⟩, (unaryCalls peer limits (requests.take k) shared s).2.1, s'') ∧
        acts'.filterMap Act.ran? = responses.take k) ∧
      (∀ fuel, 3 * requests.length < fuel → ∃ acts s',
        Call.run peer limits fuel .exchange shared s = (acts, .finished .exchange (.ok .nothing), after, s') ∧
        acts.filterMap Act.ran? = responses ∧ acts.filterMap Act.sent? = responses) ∧
      (∀ fuel, 2 * requests.length < fuel → ∃ acts summary s',
        Call.run peer limits fuel .tally shared s =
          (acts, .finished (.tally summary) (.ok (.summary summary)), after, s') ∧
        acts.filterMap Act.ran? = responses ∧
        summary.total.toInt = requests.length ∧ summary.success.toInt = responses.countP (·.ok) ∧
        summary.failed.toInt = responses.countP (!·.ok) ∧ summary.requestId = firstId requests)) ∧
    (∀ s requests, feeds s requests → ∀ request : RepeatRequest, 0 < request.times → ∃ responses after,
      unaryCalls peer limits (List.replicate request.times.toNatClampNeg ⟨request.requestId, request.config⟩) shared s =
        (responses.map fun response => some (.ok (.work response)), after, s) ∧
      responses.length = request.times.toNatClampNeg ∧
      ∀ fuel, 2 * request.times.toNatClampNeg < fuel → ∃ acts last s',
        Call.run peer limits fuel (.repeated request) shared s = (acts, .finished last (.ok .nothing), after, s') ∧
        acts.filterMap Act.ran? = responses ∧ acts.filterMap Act.sent? = responses) := by
  constructor
  · intro s requests hs hbound
    refine ⟨_, _, unaryCalls_eq limits shared requests s, length_runItems limits shared requests, ?_, ?_, ?_⟩
    · intro k hk
      have hsplit : feeds s (requests.take k ++ requests.drop k) := by rwa [List.take_append_drop]
      have hlength : (requests.take k).length = k := List.length_take_of_le hk
      have htake : (runItems limits shared requests).1.take k = (runItems limits shared (requests.take k)).1 := by
        conv_lhs => rw [← List.take_append_drop k requests, runItems_append]
        exact List.take_left' (by rw [length_runItems, hlength])
      obtain ⟨acts, s', -, hran, hsent, hrun⟩ :=
        Call.run_exchange_items limits shared hpeer _ _ hsplit
      obtain ⟨acts', s'', -, hran', -, hrun'⟩ :=
        Call.run_tally_items limits shared hpeer _ _ hsplit {}
      have hrun := hrun 0
      have hrun' := hrun' 0
      rw [hlength, Nat.zero_add] at hrun hrun'
      refine ⟨acts, acts', tallyItems {} (requests.take k) (runItems limits shared (requests.take k)).1, s', s'', ?_, hran.trans htake.symm, hsent.trans htake.symm, ?_, hran'.trans htake.symm⟩
      · rw [hrun, unaryCalls_eq, Call.run, List.append_nil]
      · rw [Call.tally, hrun', unaryCalls_eq, Call.run, List.append_nil]
    · intro fuel hfuel
      exact Call.run_exchange limits shared hpeer hs hfuel
    · intro fuel hfuel
      obtain ⟨acts, s', hrun, hran⟩ := Call.run_tally limits shared hpeer hs hfuel
      exact ⟨acts, _, s', hrun, hran, summary_spec _ _ (length_runItems limits shared requests) hbound⟩
  · intro s requests hs request htimes
    refine ⟨_, _, unaryCalls_eq limits shared _ s, by rw [length_runItems, List.length_replicate], ?_⟩
    intro fuel hfuel
    have hpositive : ¬ request.times ≤ 0 := Int32.not_le.mpr htimes
    obtain ⟨acts, s', hrun, hran, hsent⟩ := Call.run_repeated limits shared hpeer hs
      ⟨request.requestId, request.config⟩ request.times.toNatClampNeg hfuel
    refine ⟨acts, .repeated ⟨request.requestId, request.config⟩ 0, s', ?_, hran, hsent⟩
    simp only [Call.repeated, if_neg hpositive]
    exact hrun

/-- Two coin flips around a request without a config: the first draw injects a failure and the second does not. -/
theorem shapes_agree_coin_flips :
    let flip : WorkConfig := { mode := 1, durationMs := 20, parallelism := 1, errorRate := ⟨false, 0x3fe0000000000000, by decide⟩ }
    let requests : List WorkRequest := [⟨"", some flip⟩, ⟨"b", none⟩, ⟨"c", some flip⟩]
    let shared : Shared := { draws := .cycle [⟨false, 0x3fd0000000000000, by decide⟩, ⟨false, 0x3fe8000000000000, by decide⟩] }
    let script : Script := { items := requests }
    ∃ acts summary after s',
      Call.run Script.peer .unbounded 7 .tally shared script =
        (acts, .finished (.tally summary) (.ok (.summary summary)), after, s') ∧
      acts.filterMap Act.ran? =
        [⟨"", false, "load: injected error"⟩, ⟨"b", false, "invalid config: config is required"⟩, ⟨"c", true, ""⟩] ∧
      summary.success.toInt = 1 ∧ summary.requestId = "b" := by
  intro flip requests shared script
  obtain ⟨responses, after, hunary, -, -, -, htally⟩ := (shapes_agree .unbounded shared Script.obliging).1 script requests
    ⟨rfl, rfl, rfl, rfl, rfl, rfl⟩ (by simp [requests])
  obtain ⟨acts, summary, s', hrun, hran, -, hsuccess, -, hid⟩ := htally 7 (by decide)
  have hresponses : responses =
      [⟨"", false, "load: injected error"⟩, ⟨"b", false, "invalid config: config is required"⟩, ⟨"c", true, ""⟩] := by
    rw [eq_runItems_of_unaryCalls .unbounded shared hunary]
    decide +kernel
  refine ⟨acts, summary, after, s', hrun, hran.trans hresponses, ?_, hid⟩
  rw [hsuccess, hresponses]
  rfl

end LoadGenerator.Service
