import LoadGenerator.Proofs.Service.Truncation
import LoadGenerator.Proofs.Service.Turns

/-!
# Loops over streams and sinks

A loop of a call meets its feed in the order of what it does. The stream hands out some requests and then ends or fails, and the sink may refuse any response. Whatever they do, the loop goes on turn by turn until the first thing that stops it, and reports just that; every request that it has run by then has been counted.
-/

namespace LoadGenerator.Service

open Message

variable {σ : Type} {limits : Load.Limits} {feed : Feed σ} {shared : Shared} {s s' : σ}

/-! ## Meeting the feed -/

/-- The feed has been met in this order: it handed out each request that was received, and each response went to its sink right after the run. -/
inductive Feed.Meets (feed : Feed σ) (s : σ) : List Act → σ → Prop where
  | start : Meets feed s [] s
  | received {acts : List Act} {s₁ s₂ : σ} {request : WorkRequest} (h : Meets feed s acts s₁)
      (hreceive : feed.receive s₁ = (.ok (some request), s₂)) : Meets feed s (acts ++ [.received request]) s₂
  | streamEnded {acts : List Act} {s₁ s₂ : σ} (h : Meets feed s acts s₁) (hreceive : feed.receive s₁ = (.ok none, s₂)) :
      Meets feed s (acts ++ [.streamEnded]) s₂
  | streamFailed {acts : List Act} {s₁ s₂ : σ} {status : Status} (h : Meets feed s acts s₁)
      (hreceive : feed.receive s₁ = (.error status, s₂)) : Meets feed s (acts ++ [.streamFailed status]) s₂
  | ran {acts : List Act} {s₁ : σ} (response : WorkResponse) (h : Meets feed s acts s₁) : Meets feed s (acts ++ [.ran response]) s₁
  | sent {acts : List Act} {s₁ s₂ : σ} {response : WorkResponse} (h : Meets feed s (acts ++ [.ran response]) s₁)
      (hsend : feed.send s₁ response = (.ok (), s₂)) : Meets feed s (acts ++ [.ran response] ++ [.sent response]) s₂
  | sendFailed {acts : List Act} {s₁ s₂ : σ} {response : WorkResponse} {status : Status} (h : Meets feed s (acts ++ [.ran response]) s₁)
      (hsend : feed.send s₁ response = (.error status, s₂)) : Meets feed s (acts ++ [.ran response] ++ [.sendFailed status]) s₂
  | completed {acts : List Act} {s₁ : σ} (h : Meets feed s acts s₁) : Meets feed s (acts ++ [.completed]) s₁

/-- A call that sends a response has just run it. -/
def Call.SendsLast (acts : List Act) (call : Call) : Prop :=
  ∀ response, call.stage = .sending response → ∃ front, acts = front ++ [.ran response]

theorem Feed.Meets.step {acts : List Act} {call next : Call} {after after' : Shared} {act : Act} {s₁ s₂ : σ} (h : feed.Meets s acts s₁)
    (hlast : call.SendsLast acts) (hstep : call.step (feed.peer false) limits after s₁ = (some act, next, after', s₂)) :
    feed.Meets s (acts ++ [act]) s₂ ∧ next.SendsLast (acts ++ [act]) := by
  obtain ⟨shape, stage⟩ := call
  cases stage with
  | ended outcome => cases hstep
  | running request =>
    have hran : (Call.afterRun request (runItem limits after request).1 shape).SendsLast (acts ++ [.ran (runItem limits after request).1]) := by
      intro response hstage
      cases shape <;> cases hstage <;> exact ⟨acts, rfl⟩
    cases hstep
    exact ⟨.ran _ h, hran⟩
  | sending response =>
    obtain ⟨front, rfl⟩ := hlast response rfl
    rw [Call.step_send] at hstep
    rcases hsend : feed.send s₁ response with ⟨status | _, s₂⟩ <;> rw [hsend] at hstep <;> cases hstep
    · exact ⟨.sendFailed h hsend, nofun⟩
    · exact ⟨.sent h hsend, nofun⟩
  | head =>
    have hfed (hshape : ∀ item left, shape ≠ .repeated item left) :
        feed.Meets s (acts ++ [act]) s₂ ∧ next.SendsLast (acts ++ [act]) := by
      rw [Call.step_receive hshape] at hstep
      rcases hreceive : feed.receive s₁ with ⟨status | _ | request, s₂⟩ <;> rw [hreceive] at hstep <;> cases hstep
      · exact ⟨.streamFailed h hreceive, nofun⟩
      · exact ⟨.streamEnded h hreceive, nofun⟩
      · exact ⟨.received h hreceive, nofun⟩
    cases shape with
    | unary => exact hfed (by simp)
    | tally summary => exact hfed (by simp)
    | exchange => exact hfed (by simp)
    | repeated item left =>
      cases left with
      | zero =>
        cases hstep
        exact ⟨.completed h, nofun⟩
      | succ left =>
        cases hstep
        exact ⟨.ran _ h, fun _ hstage => by cases hstage; exact ⟨acts, rfl⟩⟩

/-- A call that is left alone meets its feed in the order of what it does. -/
theorem Call.Reaches.meets {call : Call} {acts : List Act} {state : Call × Shared × σ} (h : Call.Reaches limits feed call shared s acts state)
    (hstart : ∀ response, call.stage ≠ .sending response) : feed.Meets s acts state.2.2 :=
  (h.keeps (P := fun acts state => feed.Meets s acts state.2.2 ∧ state.1.SendsLast acts)
    (fun _ _ _ _ _ _ hmeets hstep => hmeets.1.step hmeets.2 hstep) ⟨.start, fun response hstage => absurd hstage (hstart response)⟩).1

/-! ## Streams that hand out requests -/

/-- A feed which, in a state that `plays` some requests, hands them out in turn and then ends or fails, whatever its sink makes of the responses. -/
structure Feed.Playing (feed : Feed σ) (plays : σ → List WorkRequest → Option Status → Prop) : Prop where
  item {s request rest failure} : plays s (request :: rest) failure → ∃ s', feed.receive s = (.ok (some request), s') ∧ plays s' rest failure
  finish {s failure} : plays s [] failure → (feed.receive s).1 = failure.elim (.ok none) .error
  sink {s requests failure} (response : WorkResponse) : plays s requests failure → plays (feed.send s response).2 requests failure

/-- A step that finds the stream at its end. -/
def Act.closes : Act → Bool
  | .streamEnded | .streamFailed _ => true
  | _ => false

theorem Shape.closes_turns (limits : Load.Limits) (shared : Shared) (shape : Shape) (requests : List WorkRequest) :
    ∀ act ∈ shape.turns limits shared requests, act.closes = false := by
  induction requests using List.reverseRecOn with
  | nil => exact nofun
  | append_singleton requests request ih =>
    intro act hact
    rw [turns_concat, List.mem_append] at hact
    rcases hact with hbefore | hlast
    · exact ih act hbefore
    · cases shape <;> simp only [turn, List.mem_cons, List.not_mem_nil, or_false] at hlast <;>
        rcases hlast with rfl | rfl | rfl <;> rfl

variable {plays : σ → List WorkRequest → Option Status → Prop} {requests : List WorkRequest} {failure : Option Status} {acts : List Act}

/-- What a call receives before it finds the end is the first of the requests. -/
theorem Feed.Playing.handed (hplays : feed.Playing plays) (hs : plays s requests failure) (h : feed.Meets s acts s')
    (hopen : ∀ act ∈ acts, act.closes = false) : ∃ rest, requests = acts.filterMap Act.received? ++ rest ∧ plays s' rest failure := by
  have hquiet {act : Act} (hact : act.received? = none) (acts : List Act) :
      (acts ++ [act]).filterMap Act.received? = acts.filterMap Act.received? := by
    simp [hact]
  induction h with
  | start => exact ⟨requests, rfl, hs⟩
  | received h hreceive ih =>
    obtain ⟨rest, hrest, hs₁⟩ := ih (List.forall_mem_append.mp hopen).1
    cases rest with
    | nil =>
      have hend := hplays.finish hs₁
      rw [hreceive] at hend
      cases failure <;> cases hend
    | cons next rest =>
      obtain ⟨s₂, hnext, hs₂⟩ := hplays.item hs₁
      rw [hreceive] at hnext
      cases hnext
      exact ⟨rest, by rw [hrest, List.filterMap_append, List.append_assoc]; rfl, hs₂⟩
  | streamEnded => exact absurd (hopen _ (List.mem_append_right _ (List.mem_singleton_self _))) nofun
  | streamFailed => exact absurd (hopen _ (List.mem_append_right _ (List.mem_singleton_self _))) nofun
  | ran response h ih =>
    rw [hquiet rfl]
    exact ih (List.forall_mem_append.mp hopen).1
  | completed h ih =>
    rw [hquiet rfl]
    exact ih (List.forall_mem_append.mp hopen).1
  | @sent acts s₁ s₂ response h hsend ih =>
    obtain ⟨rest, hrest, hs₁⟩ := ih (List.forall_mem_append.mp hopen).1
    have hs₂ := hplays.sink response hs₁
    rw [hsend] at hs₂
    exact ⟨rest, by rw [hquiet rfl, hrest], hs₂⟩
  | @sendFailed acts s₁ s₂ response status h hsend ih =>
    obtain ⟨rest, hrest, hs₁⟩ := ih (List.forall_mem_append.mp hopen).1
    have hs₂ := hplays.sink response hs₁
    rw [hsend] at hs₂
    exact ⟨rest, by rw [hquiet rfl, hrest], hs₂⟩

theorem Feed.Meets.of_closing {act : Act} (h : feed.Meets s (acts ++ [act]) s') (hact : act.closes = true) :
    ∃ s₁, feed.Meets s acts s₁ ∧ (act = .streamEnded ∧ feed.receive s₁ = (.ok none, s') ∨
      ∃ status, act = .streamFailed status ∧ feed.receive s₁ = (.error status, s')) := by
  generalize hall : acts ++ [act] = all at h
  cases h with
  | start => simp at hall
  | streamEnded h hreceive =>
    obtain ⟨rfl, rfl⟩ := List.append_singleton_inj.mp hall
    exact ⟨_, h, .inl ⟨rfl, hreceive⟩⟩
  | streamFailed h hreceive =>
    obtain ⟨rfl, rfl⟩ := List.append_singleton_inj.mp hall
    exact ⟨_, h, .inr ⟨_, rfl, hreceive⟩⟩
  | _ =>
    obtain ⟨-, rfl⟩ := List.append_singleton_inj.mp hall
    cases hact

/-- The end of a stream is found once its requests have all been received. -/
theorem Feed.Playing.closed (hplays : feed.Playing plays) (hs : plays s requests failure) {act : Act} (h : feed.Meets s (acts ++ [act]) s')
    (hact : act.closes = true) (hopen : ∀ act ∈ acts, act.closes = false) :
    acts.filterMap Act.received? = requests ∧ act = failure.elim .streamEnded .streamFailed := by
  obtain ⟨s₁, hmeets, hclosing⟩ := h.of_closing hact
  obtain ⟨rest, hrest, hs₁⟩ := hplays.handed hs hmeets hopen
  cases rest with
  | nil =>
    have hend := hplays.finish hs₁
    rw [List.append_nil] at hrest
    refine ⟨hrest.symm, ?_⟩
    rcases hclosing with ⟨rfl, hreceive⟩ | ⟨status, rfl, hreceive⟩ <;> rw [hreceive] at hend <;> cases failure <;> cases hend <;> rfl
  | cons next rest =>
    obtain ⟨s₂, hnext, -⟩ := hplays.item hs₁
    rcases hclosing with ⟨-, hreceive⟩ | ⟨status, -, hreceive⟩ <;> rw [hreceive] at hnext <;> cases hnext

/-! ## Whole loops over a stream -/

theorem Call.reaches_alone (limits : Load.Limits) (feed : Feed σ) (call : Call) (shared : Shared) (s : σ) (steps : Nat) :
    Call.Reaches limits feed call shared s (call.alone limits feed shared s steps).1 (call.alone limits feed shared s steps).2 :=
  Call.run_keeps (P := Call.Reaches limits feed call shared s) (fun _ _ _ _ _ _ hreaches hstep => hreaches.step hstep)
    (Call.Reaches.start limits feed call shared s) steps

/-- A call that has not ended has done something in each of its steps. -/
theorem Call.length_alone {call : Call} {steps : Nat} (hopen : (call.alone limits feed shared s steps).2.1.outcome? = none) :
    (call.alone limits feed shared s steps).1.length = steps := by
  induction steps generalizing call shared s with
  | zero => rfl
  | succ steps ih =>
    obtain ⟨hended, -⟩ | ⟨-, act, hact⟩ := Call.step_feed limits feed false call shared s
    · rw [Call.alone, Call.run_ended limits shared hended] at hopen
      rw [hopen] at hended
      cases hended
    · have hstep : Call.step (feed.peer false) limits call shared s = (some act, (Call.step (feed.peer false) limits call shared s).2) :=
        Prod.ext hact rfl
      rw [Call.alone, Call.run_step limits shared hstep] at hopen ⊢
      rw [List.length_cons, ih hopen]

variable {shape : Shape} {call : Call} {after : Shared}

/-- A call that has not ended has done at most three things with each request that it has received. -/
theorem InTurn.of_open (h : InTurn limits shared shape acts call after) (hshape : shape.IsFed) (hopen : call.outcome? = none) :
    acts.length ≤ 3 * (acts.filterMap Act.received?).length ∧ ∀ act ∈ acts, act.closes = false := by
  have hlength (done : List WorkRequest) := Shape.length_turns_le limits shared done shape
  have hreceived (done : List WorkRequest) := Shape.received_turns limits shared done hshape
  have hcloses := Shape.closes_turns limits shared shape
  cases h with
  | head done => exact ⟨by rw [hreceived]; exact hlength done, hcloses done⟩
  | running done request =>
    refine ⟨?_, List.forall_mem_append.mpr ⟨hcloses done, by simp [Act.closes]⟩⟩
    have hturns := hlength done
    rw [List.filterMap_append, hreceived, List.length_append, List.length_append]
    simp only [List.filterMap_cons, List.filterMap_nil, Act.received?, List.length_cons, List.length_nil]
    omega
  | sending done request response after hexchange hran =>
    refine ⟨?_, List.forall_mem_append.mpr ⟨hcloses done, by simp [Act.closes]⟩⟩
    have hturns := hlength done
    rw [List.filterMap_append, hreceived, List.length_append, List.length_append]
    simp only [List.filterMap_cons, List.filterMap_nil, Act.received?, List.length_cons, List.length_nil]
    omega
  | streamEnded => cases hopen
  | streamFailed => cases hopen
  | sendFailed => cases hopen

section

variable (hplays : feed.Playing plays) (hs : plays s requests failure) (hshape : shape = .tally {} ∨ shape = .exchange)

include hshape in
theorem InTurn.of_reaches {state : Call × Shared × σ} (h : Call.Reaches limits feed ⟨shape, .head⟩ shared s acts state) :
    InTurn limits shared shape acts state.1 state.2.1 := by
  have hfed : shape.IsFed := hshape.imp_left fun htally => ⟨{}, htally⟩
  exact h.keeps (P := fun acts state => InTurn limits shared shape acts state.1 state.2.1)
    (fun _ _ _ _ _ _ hturn hstep => hturn.step hfed rfl hstep) (.start limits shared hshape)

include hplays hs hshape in
/-- A loop over a stream ends, at the latest after three steps for each request and one for the end. -/
theorem fed_ends {steps : Nat} (hsteps : 3 * requests.length < steps) :
    (Call.alone limits feed ⟨shape, .head⟩ shared s steps).2.1.outcome?.isSome = true := by
  have hfed : shape.IsFed := hshape.imp_left fun htally => ⟨{}, htally⟩
  have hreaches := Call.reaches_alone limits feed ⟨shape, .head⟩ shared s steps
  by_contra hnone
  have hopen := Option.not_isSome_iff_eq_none.mp hnone
  obtain ⟨hlength, hcloses⟩ := (InTurn.of_reaches hshape hreaches).of_open hfed hopen
  obtain ⟨rest, hrest, -⟩ := hplays.handed hs (hreaches.meets (by simp)) hcloses
  have hreceived := congrArg List.length hrest
  rw [Call.length_alone hopen] at hlength
  rw [List.length_append] at hreceived
  omega

include hplays hs hshape in
/-- A loop over a stream goes on to the end of the stream and reports it, unless a response is refused before. -/
theorem fed_course : ∃ received ≤ requests.length, ∃ acts outcome s',
    (∀ steps, 3 * requests.length < steps → Call.alone limits feed ⟨shape, .head⟩ shared s steps =
      (acts, .finished (shape.after limits shared (requests.take received)) outcome,
        (runItems limits shared (requests.take received)).2, s')) ∧ feed.Meets s acts s' ∧
    (received = requests.length ∧ acts = shape.turns limits shared requests ++ [failure.elim .streamEnded .streamFailed] ∧
        outcome = failure.elim (.ok (Call.streamReply (shape.after limits shared requests))) .error ∨
      shape = .exchange ∧ ∃ sent request response status, received = sent + 1 ∧ requests[sent]? = some request ∧
        acts = shape.turns limits shared (requests.take sent) ++ [.received request, .ran response, .sendFailed status] ∧
        outcome = .error status) := by
  have hfed : shape.IsFed := hshape.imp_left fun htally => ⟨{}, htally⟩
  have hended : (Call.alone limits feed ⟨shape, .head⟩ shared s (3 * requests.length + 1)).2.1.outcome?.isSome = true :=
    fed_ends hplays hs hshape (Nat.lt_succ_self _)
  have hreaches := Call.reaches_alone limits feed ⟨shape, .head⟩ shared s (3 * requests.length + 1)
  have hturn := InTurn.of_reaches hshape hreaches
  have hmeets := hreaches.meets (by simp)
  have hlater : ∀ steps, 3 * requests.length < steps → Call.alone limits feed ⟨shape, .head⟩ shared s steps =
      Call.alone limits feed ⟨shape, .head⟩ shared s (3 * requests.length + 1) := fun _ hsteps => Call.run_of_ended hended hsteps
  generalize Call.alone limits feed ⟨shape, .head⟩ shared s (3 * requests.length + 1) = result at hended hturn hmeets hlater
  obtain ⟨acts, call, after, s'⟩ := result
  dsimp only at hended hturn hmeets
  have hcloses := Shape.closes_turns limits shared shape
  have hreceived (done : List WorkRequest) := Shape.received_turns limits shared done hfed
  have hclosed {done : List WorkRequest} {act : Act} (hact : act.closes = true)
      (hmeets : feed.Meets s (shape.turns limits shared done ++ [act]) s') :
      done = requests ∧ act = failure.elim .streamEnded .streamFailed := by
    have h := hplays.closed hs hmeets hact (hcloses done)
    rwa [hreceived] at h
  cases hturn with
  | head => cases hended
  | running => cases hended
  | sending => cases hended
  | streamEnded done =>
    obtain ⟨rfl, hend⟩ := hclosed rfl hmeets
    cases failure <;> cases hend
    refine ⟨done.length, le_rfl, _, _, s', ?_, hmeets, .inl ⟨rfl, rfl, rfl⟩⟩
    rw [List.take_length]
    exact hlater
  | streamFailed done status =>
    obtain ⟨rfl, hend⟩ := hclosed rfl hmeets
    cases failure <;> cases hend
    refine ⟨done.length, le_rfl, _, _, s', ?_, hmeets, .inl ⟨rfl, rfl, rfl⟩⟩
    rw [List.take_length]
    exact hlater
  | sendFailed done request response status _ hexchange hran =>
    obtain ⟨rest, hrest, -⟩ := hplays.handed hs hmeets (List.forall_mem_append.mpr ⟨hcloses done, by simp [Act.closes]⟩)
    rw [List.filterMap_append, hreceived] at hrest
    obtain rfl : requests = done ++ [request] ++ rest := hrest
    have hlength : (done ++ [request]).length = done.length + 1 := List.length_append
    subst hexchange
    refine ⟨done.length + 1, by simp, _, _, s', ?_, hmeets, .inr ⟨rfl, done.length, request, response, status, rfl, by simp, ?_, rfl⟩⟩
    · rw [List.take_left' hlength, runItems_concat, hran]
      exact hlater
    · rw [List.append_assoc, List.take_left]

end

/-! ## Repetitions -/

/-- A loop over repetitions goes on to the last of them, unless a response is refused before. -/
theorem repeated_course (limits : Load.Limits) (feed : Feed σ) (item : WorkRequest) (times : Nat) (shared : Shared) (s : σ) :
    ∃ ran ≤ times, ∃ acts last outcome s',
      (∀ steps, 2 * times < steps → Call.alone limits feed ⟨.repeated item times, .head⟩ shared s steps =
        (acts, .finished last outcome, (runItems limits shared (List.replicate ran item)).2, s')) ∧
      (ran = times ∧ acts = (Shape.repeated item times).turns limits shared (List.replicate times item) ++ [.completed] ∧
          outcome = .ok .nothing ∨
        ∃ sent response status, ran = sent + 1 ∧
          acts = (Shape.repeated item times).turns limits shared (List.replicate sent item) ++ [.ran response, .sendFailed status] ∧
          outcome = .error status) := by
  induction times generalizing shared s with
  | zero =>
    refine ⟨0, le_rfl, [.completed], .repeated item 0, .ok .nothing, s, ?_, .inl ⟨rfl, rfl, rfl⟩⟩
    intro steps hsteps
    obtain ⟨more, rfl⟩ := Nat.exists_eq_add_of_lt hsteps
    rw [Call.alone, Nat.mul_zero, Nat.zero_add, Call.run_step limits shared (Call.step_repeated_done limits shared item),
      Call.run_ended limits shared rfl]
    rfl
  | succ times ih =>
    have hran : Call.step (feed.peer false) limits ⟨.repeated item (times + 1), .head⟩ shared s =
        (some (.ran (runItem limits shared item).1), ⟨.repeated item times, .sending (runItem limits shared item).1⟩,
          (runItem limits shared item).2, s) := rfl
    have hsteps {steps : Nat} (h : 2 * (times + 1) < steps) : ∃ more, steps = more + 1 + 1 ∧ 2 * times < more :=
      ⟨steps - 2, by omega, by omega⟩
    rcases hsend : feed.send s (runItem limits shared item).1 with ⟨status | _, s₁⟩
    · refine ⟨1, by omega, [.ran (runItem limits shared item).1, .sendFailed status], .repeated item times, .error status, s₁, ?_,
        .inr ⟨0, _, status, rfl, rfl, rfl⟩⟩
      intro steps hless
      obtain ⟨more, rfl, -⟩ := hsteps hless
      rw [Call.alone, Call.run_step limits shared hran, Call.run_step limits _ (by rw [Call.step_send, hsend]),
        Call.run_ended limits _ rfl]
      rfl
    · obtain ⟨ran, hle, acts, last, outcome, s', hcourse, hends⟩ := ih (runItem limits shared item).2 s₁
      refine ⟨ran + 1, by omega, .ran (runItem limits shared item).1 :: .sent (runItem limits shared item).1 :: acts, last, outcome, s', ?_, ?_⟩
      · intro steps hless
        obtain ⟨more, rfl, hmore⟩ := hsteps hless
        have hrest := hcourse more hmore
        rw [Call.alone] at hrest ⊢
        rw [Call.run_step limits shared hran, Call.run_step limits _ (by rw [Call.step_send, hsend]), hrest]
        rfl
      · rcases hends with ⟨rfl, rfl, rfl⟩ | ⟨sent, response, status, rfl, rfl, rfl⟩
        · exact .inl ⟨rfl, rfl, rfl⟩
        · exact .inr ⟨sent + 1, response, status, rfl, rfl, rfl⟩

/-! ## What the loops report -/

theorem filterMap_append_of_none {α : Type} {f : Act → Option α} {act : Act} (h : f act = none) (acts : List Act) :
    (acts ++ [act]).filterMap f = acts.filterMap f := by
  simp [h]

theorem summary_runItems (limits : Load.Limits) (shared : Shared) (requests : List WorkRequest) (hbound : requests.length < 2147483648) :
    let responses := (runItems limits shared requests).1
    (tallyItems {} requests responses).total.toInt = responses.length ∧
      (tallyItems {} requests responses).total.toInt =
        (tallyItems {} requests responses).success.toInt + (tallyItems {} requests responses).failed.toInt ∧
      (tallyItems {} requests responses).success.toInt = responses.countP (·.ok) ∧
      (runItems limits shared requests).2.metrics.runCount = shared.metrics.runCount + responses.length := by
  intro responses
  have hlength : responses.length = requests.length := length_runItems limits shared requests
  obtain ⟨htotal, hsuccess, hfailed, -⟩ := summary_spec requests responses hlength hbound
  have hboth : requests.length = responses.countP (·.ok) + responses.countP (!·.ok) := by
    rw [← hlength, List.length_eq_countP_add_countP (·.ok)]
    simp
  refine ⟨by rw [htotal, hlength], ?_, hsuccess, by rw [runCount_runItems, hlength]⟩
  rw [htotal, hsuccess, hfailed, hboth, Nat.cast_add]

/-- The summary that a call has come to counts the requests that it has run, each as a success or as a failure, and the books count the same runs. -/
theorem tally_counts (hplays : feed.Playing plays) (hs : plays s requests failure) (hbound : requests.length < 2147483648) (steps : Nat) :
    ∃ summary, (Call.alone limits feed .tally shared s steps).2.1.shape = .tally summary ∧
      let ran := (Call.alone limits feed .tally shared s steps).1.filterMap Act.ran?
      summary.total.toInt = ran.length ∧ summary.total.toInt = summary.success.toInt + summary.failed.toInt ∧
        summary.success.toInt = ran.countP (·.ok) ∧
        (Call.alone limits feed .tally shared s steps).2.2.1.metrics.runCount = shared.metrics.runCount + ran.length := by
  have hreaches := Call.reaches_alone limits feed .tally shared s steps
  have hturn := InTurn.of_reaches (.inl rfl) hreaches
  have hmeets := hreaches.meets (by simp [Call.tally])
  generalize Call.alone limits feed .tally shared s steps = result at hturn hmeets ⊢
  obtain ⟨acts, call, after, s'⟩ := result
  dsimp only at hturn hmeets ⊢
  have hcloses := Shape.closes_turns limits shared (.tally {})
  have hreceived (done : List WorkRequest) := Shape.received_turns limits shared done (Shape.isFed_tally {})
  have hran (done : List WorkRequest) := Shape.ran_turns limits shared done (.tally {})
  have hcounts {done rest : List WorkRequest} (hrest : requests = done ++ rest) := by
    refine summary_runItems limits shared done ?_
    rw [hrest, List.length_append] at hbound
    omega
  cases hturn with
  | head done =>
    obtain ⟨rest, hrest, -⟩ := hplays.handed hs hmeets (hcloses done)
    rw [hreceived] at hrest
    exact ⟨_, rfl, by rw [hran]; exact hcounts hrest⟩
  | running done request =>
    obtain ⟨rest, hrest, -⟩ := hplays.handed hs hmeets (List.forall_mem_append.mpr ⟨hcloses done, by simp [Act.closes]⟩)
    rw [List.filterMap_append, hreceived, List.append_assoc] at hrest
    exact ⟨_, rfl, by rw [filterMap_append_of_none rfl, hran]; exact hcounts hrest⟩
  | sending _ _ _ _ hexchange => cases hexchange
  | streamEnded done =>
    obtain ⟨hall, -⟩ := hplays.closed hs hmeets rfl (hcloses done)
    rw [hreceived] at hall
    exact ⟨_, rfl, by rw [filterMap_append_of_none rfl, hran]; exact hcounts (hall.symm.trans (List.append_nil done).symm)⟩
  | streamFailed done status =>
    obtain ⟨hall, -⟩ := hplays.closed hs hmeets rfl (hcloses done)
    rw [hreceived] at hall
    exact ⟨_, rfl, by rw [filterMap_append_of_none rfl, hran]; exact hcounts (hall.symm.trans (List.append_nil done).symm)⟩
  | sendFailed _ _ _ _ _ hexchange => cases hexchange

/-- A loop goes on turn by turn until the first thing that stops it, and reports just that, whatever its stream brings and wherever its sink fails.

A call with a response to each request receives, runs and sends in turn; it ends with the end of the stream or its failure, or with the failure of the first response that is refused, and each request that it has received has been run and counted. A call that tallies keeps a summary of the requests that it has run, and returns it if the stream ends and not if it fails. A call that repeats a request does nothing unless the number of times is positive; it ends with the failure of the first response that is refused, with one more run counted than responses sent. -/
theorem streams_in_turn (limits : Load.Limits) (shared : Shared) (hplays : feed.Playing plays) (hs : plays s requests failure) :
    (∃ received ≤ requests.length, ∃ acts outcome after s',
      (∀ steps, 3 * requests.length < steps →
        Call.alone limits feed .exchange shared s steps = (acts, .finished .exchange outcome, after, s')) ∧
      feed.Meets s acts s' ∧ after.metrics.runCount = shared.metrics.runCount + received ∧
      (received = requests.length ∧ acts = Shape.exchange.turns limits shared requests ++ [failure.elim .streamEnded .streamFailed] ∧
          outcome = failure.elim (.ok .nothing) .error ∨
        ∃ sent request response status, received = sent + 1 ∧ requests[sent]? = some request ∧
          acts = Shape.exchange.turns limits shared (requests.take sent) ++ [.received request, .ran response, .sendFailed status] ∧
          outcome = .error status)) ∧
    (requests.length < 2147483648 →
      (∀ steps, ∃ summary, (Call.alone limits feed .tally shared s steps).2.1.shape = .tally summary ∧
        let ran := (Call.alone limits feed .tally shared s steps).1.filterMap Act.ran?
        summary.total.toInt = ran.length ∧ summary.total.toInt = summary.success.toInt + summary.failed.toInt ∧
          summary.success.toInt = ran.countP (·.ok) ∧
          (Call.alone limits feed .tally shared s steps).2.2.1.metrics.runCount = shared.metrics.runCount + ran.length) ∧
      ∃ acts summary after s',
        (∀ steps, 3 * requests.length < steps → Call.alone limits feed .tally shared s steps =
          (acts, .finished (.tally summary) (failure.elim (.ok (.summary summary)) .error), after, s')) ∧
        feed.Meets s acts s' ∧ acts = (Shape.tally {}).turns limits shared requests ++ [failure.elim .streamEnded .streamFailed]) ∧
    (∀ request : RepeatRequest, request.times ≤ 0 → ∀ steps, ∃ last, Call.alone limits feed (.repeated request) shared s steps =
      ([], .finished last (.error ⟨.failedPrecondition, "repeat must be > 0"⟩), shared, s)) ∧
    (∀ request : RepeatRequest, 0 < request.times →
      let item : WorkRequest := ⟨request.requestId, request.config⟩
      let times := request.times.toNatClampNeg
      ∃ ran ≤ times, ∃ acts last outcome after s',
        (∀ steps, 2 * times < steps → Call.alone limits feed (.repeated request) shared s steps = (acts, .finished last outcome, after, s')) ∧
        feed.Meets s acts s' ∧ after.metrics.runCount = shared.metrics.runCount + ran ∧
        (ran = times ∧ acts = (Shape.repeated item times).turns limits shared (List.replicate times item) ++ [.completed] ∧
            outcome = .ok .nothing ∨
          ∃ sent response status, ran = sent + 1 ∧
            acts = (Shape.repeated item times).turns limits shared (List.replicate sent item) ++ [.ran response, .sendFailed status] ∧
            outcome = .error status)) := by
  refine ⟨?exchange, ?tally, ?refused, ?repeated⟩
  case exchange =>
    obtain ⟨received, hle, acts, outcome, s', hcourse, hmeets, hends⟩ := fed_course hplays hs (.inr rfl)
    refine ⟨received, hle, acts, outcome, _, s', hcourse, hmeets, ?_, ?_⟩
    · rw [runCount_runItems, List.length_take_of_le hle]
    · exact hends.imp_right And.right
  case tally =>
    intro hbound
    refine ⟨tally_counts hplays hs hbound, ?_⟩
    obtain ⟨received, hle, acts, outcome, s', hcourse, hmeets, hends⟩ := fed_course hplays hs (.inl rfl)
    obtain ⟨rfl, hacts, rfl⟩ := hends.resolve_right fun hrefused => by cases hrefused.1
    rw [List.take_length] at hcourse
    exact ⟨acts, _, _, s', hcourse, hmeets, hacts⟩
  case refused =>
    intro request htimes steps
    rw [Call.repeated, if_pos htimes, Call.alone, Call.run_ended limits shared rfl]
    exact ⟨_, rfl⟩
  case repeated =>
    intro request htimes item times
    have hstart : Call.repeated request = ⟨.repeated item times, .head⟩ := if_neg (Int32.not_le.mpr htimes)
    obtain ⟨ran, hle, acts, last, outcome, s', hcourse, hends⟩ := repeated_course limits feed item times shared s
    have hmeets := (Call.reaches_alone limits feed ⟨.repeated item times, .head⟩ shared s (2 * times + 1)).meets (by simp)
    rw [hcourse _ (Nat.lt_succ_self _)] at hmeets
    refine ⟨ran, hle, acts, last, outcome, _, s', by rw [hstart]; exact hcourse, hmeets, ?_, hends⟩
    rw [runCount_runItems, List.length_replicate]

/-- A script that is to hand out these requests and then end or fail. -/
def Script.Plays (script : Script) (requests : List WorkRequest) (failure : Option Status) : Prop :=
  script.items = requests ∧ script.failure = failure

theorem Script.playing : Script.feed.Playing Script.Plays where
  item {script request rest failure} h := by
    simp only [Script.feed, Script.receive, h.1]
    exact ⟨_, rfl, rfl, h.2⟩
  finish {script failure} h := by
    simp only [Script.feed, Script.receive, h.1, h.2]
    cases failure <;> rfl
  sink {script requests failure} response h := by
    simp only [Script.feed, Script.send]
    split
    · exact h
    · exact h

/-- A stream of three requests that fails and a sink that refuses the second response. A call that answers each request fails with its sink after two runs, one that tallies fails with its stream, and one that repeats a request starts only with a positive number of times. -/
theorem streams_in_turn_refused_response :
    let requests : List WorkRequest := [⟨"a", none⟩, ⟨"b", none⟩, ⟨"c", none⟩]
    let full : Status := ⟨.internal, "full"⟩
    let script : Script := { items := requests, failure := some .callCancelled, sinkFailure := some (1, full) }
    let shared : Shared := { draws := .always .zero }
    let refused (id : String) : WorkResponse := ⟨id, false, "invalid config: config is required"⟩
    script.Plays requests (some .callCancelled) ∧
    (∃ after s', Call.alone .unbounded Script.feed .exchange shared script 10 =
        ([.received ⟨"a", none⟩, .ran (refused "a"), .sent (refused "a"), .received ⟨"b", none⟩, .ran (refused "b"), .sendFailed full],
          .finished .exchange (.error full), after, s') ∧ after.metrics.runCount = 2) ∧
    (requests.length < 2147483648 ∧ ∃ acts summary after s',
      Call.alone .unbounded Script.feed .tally shared script 10 = (acts, .finished (.tally summary) (.error .callCancelled), after, s')) ∧
    ((0 : Int32) ≤ 0 ∧ ∃ last, Call.alone .unbounded Script.feed (.repeated { times := 0 }) shared script 1 =
      ([], .finished last (.error ⟨.failedPrecondition, "repeat must be > 0"⟩), shared, script)) ∧
    (0 : Int32) < 2 ∧ ∃ ran : Nat, ran ≤ 2 ∧ ∃ acts last outcome after s',
      Call.alone .unbounded Script.feed (.repeated { times := 2 }) shared script 5 = (acts, .finished last outcome, after, s') ∧
        after.metrics.runCount = ran := by
  intro requests full script shared refused
  have hplays : script.Plays requests (some .callCancelled) := ⟨rfl, rfl⟩
  have hacts : (Call.alone .unbounded Script.feed .exchange shared script 10).1 =
      [.received ⟨"a", none⟩, .ran (refused "a"), .sent (refused "a"), .received ⟨"b", none⟩, .ran (refused "b"), .sendFailed full] := by
    decide +kernel
  obtain ⟨⟨received, hle, acts, outcome, after, s', hcourse, -, hcount, hends⟩, htally, hrefused, hrepeated⟩ :=
    streams_in_turn .unbounded shared Script.playing hplays
  refine ⟨hplays, ?_, ⟨by decide, ?_⟩, ⟨by decide, hrefused { times := 0 } (by decide) 1⟩, by decide, ?_⟩
  · rw [hcourse 10 (by decide)] at hacts ⊢
    dsimp only at hacts
    subst hacts
    rcases hends with ⟨-, hall, -⟩ | ⟨sent, request, response, status, rfl, -, hcut, rfl⟩
    · have hlast := congrArg List.getLast? hall
      rw [List.getLast?_append] at hlast
      cases hlast
    · have hlast := congrArg List.getLast? hcut
      have hreceived := congrArg (fun acts => (acts.filterMap Act.received?).length) hcut
      rw [List.getLast?_append] at hlast
      obtain rfl : full = status := Act.sendFailed.inj (Option.some.inj hlast)
      simp only [List.filterMap_append, Shape.received_turns _ _ _ Shape.isFed_exchange, List.length_append,
        List.length_take_of_le (Nat.le_of_succ_le hle)] at hreceived
      obtain rfl : 1 = sent := Nat.add_right_cancel hreceived
      exact ⟨after, s', rfl, hcount⟩
  · obtain ⟨-, acts, summary, after, s', htallied, -⟩ := htally (by decide)
    exact ⟨acts, summary, after, s', htallied 10 (by decide)⟩
  · obtain ⟨ran, hran, acts, last, outcome, after, s', hrepeats, -, hcounted, -⟩ := hrepeated { times := 2 } (by decide)
    exact ⟨ran, hran, acts, last, outcome, after, s', hrepeats 5 (by decide), hcounted.trans (Int.zero_add _)⟩

end LoadGenerator.Service
