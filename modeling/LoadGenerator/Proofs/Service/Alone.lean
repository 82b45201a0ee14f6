import LoadGenerator.Proofs.Service.Counts
import LoadGenerator.Proofs.Service.Shapes

/-!
# Calls that are left alone

A call whose token is never cancelled takes its requests from a feed and goes on until it ends. What it has done after some steps is a beginning of what it does after more of them, and what its steps keep holds all the way.
-/

namespace LoadGenerator.Service

open Message

variable {σ : Type} {limits : Load.Limits} {feed : Feed σ} {cancelled : Bool}

namespace Call

theorem run_add {peer : Peer σ} {call next : Call} {shared shared' : Shared} {s s' : σ} {acts : List Act} {steps : Nat}
    (h : run peer limits steps call shared s = (acts, next, shared', s')) (hlength : acts.length = steps) (more : Nat) :
    run peer limits (steps + more) call shared s =
      (acts ++ (run peer limits more next shared' s').1, (run peer limits more next shared' s').2) := by
  induction steps generalizing call shared s acts with
  | zero =>
    obtain rfl := List.length_eq_zero_iff.mp hlength
    rw [run, Prod.mk.injEq, Prod.mk.injEq, Prod.mk.injEq] at h
    obtain ⟨-, rfl, rfl, rfl⟩ := h
    rw [Nat.zero_add, List.nil_append]
  | succ steps ih =>
    rcases hstep : step peer limits call shared s with ⟨act?, first, shared₁, s₁⟩
    cases act? with
    | none =>
      rw [run, hstep] at h
      rw [← (Prod.mk.inj h).1] at hlength
      cases hlength
    | some act =>
      rw [run_step limits shared hstep] at h
      obtain ⟨rfl, hnext⟩ := Prod.mk.inj h
      rw [List.length_cons, Nat.add_right_cancel_iff] at hlength
      rw [Nat.succ_add, run_step limits shared hstep, ih (Prod.ext rfl hnext) hlength]
      rfl

theorem step_send (shape : Shape) (response : WorkResponse) (shared : Shared) (s : σ) :
    step (feed.peer cancelled) limits ⟨shape, .sending response⟩ shared s =
      match feed.send s response with
      | (.ok (), s) => (some (.sent response), ⟨shape, .head⟩, shared, s)
      | (.error status, s) => (some (.sendFailed status), finished shape (.error status), shared, s) := rfl

theorem step_receive {shape : Shape} (h : ∀ item left, shape ≠ .repeated item left) (shared : Shared) (s : σ) :
    step (feed.peer false) limits ⟨shape, .head⟩ shared s =
      match feed.receive s with
      | (.ok (some request), s) => (some (.received request), ⟨shape, .running request⟩, shared, s)
      | (.ok none, s) => (some .streamEnded, finished shape (.ok (streamReply shape)), shared, s)
      | (.error status, s) => (some (.streamFailed status), finished shape (.error status), shared, s) := by
  rcases hreceive : feed.receive s with ⟨_ | _ | request, s'⟩ <;> simp only [step_reads h, Feed.peer, hreceive]

/-- A call that takes its requests from a feed does something until it ends. -/
theorem step_feed (limits : Load.Limits) (feed : Feed σ) (cancelled : Bool) (call : Call) (shared : Shared) (s : σ) :
    (call.outcome?.isSome = true ∧ step (feed.peer cancelled) limits call shared s = (none, call, shared, s)) ∨
      call.outcome? = none ∧ ∃ act, (step (feed.peer cancelled) limits call shared s).1 = some act := by
  obtain ⟨shape, stage⟩ := call
  cases stage with
  | ended outcome => exact .inl ⟨rfl, rfl⟩
  | running request => exact .inr ⟨rfl, _, rfl⟩
  | sending response =>
    refine .inr ⟨rfl, ?_⟩
    rw [step_send]
    rcases feed.send s response with ⟨_ | _, s'⟩ <;> exact ⟨_, rfl⟩
  | head =>
    refine .inr ⟨rfl, ?_⟩
    have hfed (h : ∀ item left, shape ≠ .repeated item left) :
        ∃ act, (step (feed.peer cancelled) limits ⟨shape, .head⟩ shared s).1 = some act := by
      cases cancelled with
      | true => exact ⟨.sawCancelled, by cases shape <;> first | rfl | exact absurd rfl (h _ _)⟩
      | false =>
        rw [step_receive h]
        rcases feed.receive s with ⟨_ | _ | request, s'⟩ <;> exact ⟨_, rfl⟩
    cases shape with
    | repeated item left =>
      cases left with
      | zero => exact ⟨_, rfl⟩
      | succ left => cases cancelled <;> exact ⟨_, rfl⟩
    | unary => exact hfed (by simp)
    | tally summary => exact hfed (by simp)
    | exchange => exact hfed (by simp)

/-- A call comes to an item that it has received, or to the next repetition of its own. -/
theorem nextItem?_cases {call : Call} {request : WorkRequest} {shape : Shape} (h : call.nextItem? cancelled = some (request, shape)) :
    (call.stage = .running request ∧ shape = call.shape) ∨
      call.stage = .head ∧ cancelled = false ∧ ∃ left, call.shape = .repeated request (left + 1) ∧ shape = .repeated request left := by
  obtain ⟨shape', stage⟩ := call
  unfold nextItem? at h
  dsimp only at h
  split at h
  next =>
    obtain ⟨rfl, rfl⟩ := Prod.mk.inj (Option.some.inj h)
    exact .inl ⟨rfl, rfl⟩
  next request' left =>
    split_ifs at h with hcancelled
    obtain ⟨rfl, rfl⟩ := Prod.mk.inj (Option.some.inj h)
    exact .inr ⟨rfl, by simpa using hcancelled, left, rfl, rfl⟩
  next => cases h

theorem step_of_looked {peer : Peer σ} (limits : Load.Limits) {s : σ} (hlooked : peer.cancelled s = (cancelled, s)) {call : Call}
    {request : WorkRequest} {shape : Shape} (h : call.nextItem? cancelled = some (request, shape)) (shared : Shared) :
    step peer limits call shared s =
      (some (.ran (runItem limits shared request).1), afterRun request (runItem limits shared request).1 shape,
        (runItem limits shared request).2, s) := by
  obtain ⟨shape', stage⟩ := call
  rcases nextItem?_cases h with ⟨hstage, rfl⟩ | ⟨hstage, rfl, left, hshape, rfl⟩
  · obtain rfl : stage = .running request := hstage
    rfl
  · obtain rfl : stage = .head := hstage
    obtain rfl : shape' = .repeated request (left + 1) := hshape
    simp only [step, hlooked]
    rfl

theorem step_of_nextItem (limits : Load.Limits) (feed : Feed σ) {call : Call} {request : WorkRequest} {shape : Shape}
    (h : call.nextItem? cancelled = some (request, shape)) (shared : Shared) (s : σ) :
    step (feed.peer cancelled) limits call shared s =
      (some (.ran (runItem limits shared request).1), afterRun request (runItem limits shared request).1 shape,
        (runItem limits shared request).2, s) :=
  step_of_looked limits rfl h shared

theorem nextItem?_of_cancelled {call : Call} {item : WorkRequest × Shape} (h : call.nextItem? cancelled = some item) :
    call.nextItem? false = some item := by
  cases cancelled with
  | false => exact h
  | true =>
    unfold nextItem? at h ⊢
    split at h
    next => exact h
    next => cases h
    next => cases h

/-- A cancelled token changes nothing of a step but at the head of a loop that would go on. -/
theorem step_of_cancelled {call : Call} (h : call.nextItem? true = none) (shared : Shared) (s : σ) :
    step (feed.peer true) limits call shared s = step (feed.peer false) limits call shared s ∨
      (call.stage = .head ∧ ∀ item, call.shape ≠ .repeated item 0) ∧
        step (feed.peer true) limits call shared s = (some .sawCancelled, finished call.shape (.error .callCancelled), shared, s) := by
  obtain ⟨shape, stage⟩ := call
  cases stage with
  | ended outcome => exact .inl rfl
  | sending response => exact .inl rfl
  | running request => cases h
  | head =>
    cases shape with
    | unary => exact .inr ⟨⟨rfl, by simp⟩, rfl⟩
    | tally summary => exact .inr ⟨⟨rfl, by simp⟩, rfl⟩
    | exchange => exact .inr ⟨⟨rfl, by simp⟩, rfl⟩
    | repeated item left =>
      cases left with
      | zero => exact .inl rfl
      | succ left => exact .inr ⟨⟨rfl, by simp⟩, rfl⟩

/-- On the way to this state the call does this, if its token is never cancelled. -/
def Reaches (limits : Load.Limits) (feed : Feed σ) (call : Call) (shared : Shared) (s : σ) (acts : List Act)
    (state : Call × Shared × σ) : Prop :=
  run (feed.peer false) limits acts.length call shared s = (acts, state)

variable {call next : Call} {shared shared' : Shared} {s s' : σ} {acts : List Act} {state : Call × Shared × σ}

theorem Reaches.start (limits : Load.Limits) (feed : Feed σ) (call : Call) (shared : Shared) (s : σ) :
    Reaches limits feed call shared s [] (call, shared, s) := rfl

theorem Reaches.step (h : Reaches limits feed call shared s acts (next, shared', s')) {act : Act}
    (hstep : Call.step (feed.peer false) limits next shared' s' = (some act, state)) :
    Reaches limits feed call shared s (acts ++ [act]) state := by
  unfold Reaches
  rw [List.length_append, List.length_singleton, run_add h rfl, run_step limits shared' hstep]
  rfl

/-- What a call has done is the beginning of what it does in more steps. -/
theorem Reaches.acts_le (h : Reaches limits feed call shared s acts state) {steps : Nat} (hsteps : acts.length ≤ steps) :
    acts <+: (run (feed.peer false) limits steps call shared s).1 := by
  obtain ⟨more, rfl⟩ := Nat.exists_eq_add_of_le hsteps
  rw [run_add h rfl]
  exact List.prefix_append _ _

/-- Once a call has ended, further steps change nothing. -/
theorem run_of_ended {steps : Nat} (h : (run (feed.peer false) limits steps call shared s).2.1.outcome?.isSome = true) {more : Nat}
    (hmore : steps ≤ more) : run (feed.peer false) limits more call shared s = run (feed.peer false) limits steps call shared s := by
  induction steps generalizing call shared s more with
  | zero => exact run_ended limits shared h more
  | succ steps ih =>
    cases more with
    | zero => cases hmore
    | succ more =>
      obtain ⟨hended, -⟩ | ⟨-, act, hact⟩ := step_feed limits feed false call shared s
      · rw [run_ended limits shared hended, run_ended limits shared hended]
      · obtain ⟨⟨next, shared', s'⟩, hstate⟩ : ∃ state, step (feed.peer false) limits call shared s = (some act, state) :=
          ⟨_, Prod.ext hact rfl⟩
        rw [run_step limits shared hstate] at h
        rw [run_step limits shared hstate, run_step limits shared hstate, ih h (Nat.le_of_succ_le_succ hmore)]

/-- A call that has not ended by a state ends later, if it ends at all. -/
theorem Reaches.length_lt (h : Reaches limits feed call shared s acts (next, shared', s')) (hopen : next.outcome? = none) {steps : Nat}
    (hended : (run (feed.peer false) limits steps call shared s).2.1.outcome?.isSome = true) : acts.length < steps := by
  by_contra hle
  rw [← run_of_ended hended (Nat.le_of_not_lt hle), h, hopen] at hended
  cases hended

/-- What holds at the start of a call that is left alone and is kept by each step holds of it at any time. -/
theorem run_keeps {P : List Act → Call × Shared × σ → Prop}
    (hstep : ∀ acts call shared s act state, P acts (call, shared, s) →
      step (feed.peer false) limits call shared s = (some act, state) → P (acts ++ [act]) state)
    (h : P acts (call, shared, s)) (steps : Nat) :
    P (acts ++ (run (feed.peer false) limits steps call shared s).1) (run (feed.peer false) limits steps call shared s).2 := by
  induction steps generalizing acts call shared s with
  | zero => rwa [run, List.append_nil]
  | succ steps ih =>
    obtain ⟨-, hquiet⟩ | ⟨-, act, hact⟩ := step_feed limits feed false call shared s
    · rwa [run, hquiet, List.append_nil]
    · obtain ⟨state, hstate⟩ : ∃ state, step (feed.peer false) limits call shared s = (some act, state) :=
        ⟨_, Prod.ext hact rfl⟩
      have hkept := ih (hstep acts call shared s act state h hstate)
      rw [run_step limits shared hstate]
      rwa [List.append_assoc] at hkept

theorem Reaches.keeps {P : List Act → Call × Shared × σ → Prop} (hreaches : Reaches limits feed call shared s acts state)
    (hstep : ∀ acts call shared s act state, P acts (call, shared, s) →
      Call.step (feed.peer false) limits call shared s = (some act, state) → P (acts ++ [act]) state)
    (h : P [] (call, shared, s)) : P acts state := by
  have hkept := run_keeps hstep h acts.length
  rwa [hreaches] at hkept

end Call

end LoadGenerator.Service
