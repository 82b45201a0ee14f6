import LoadGenerator.Proofs.Load.LifeCycle
import LoadGenerator.Proofs.Service.Alone
import LoadGenerator.Proofs.Service.Prospects

/-!
# Calls that are cancelled

The token of a call may be cancelled at any moment, also while the call waits for a run. A run returns what was decided before it began, so all that the token does to the call is to end it at the head of its loop. A call is always next to one that is left alone, and can go on until it ends.
-/

namespace LoadGenerator.Service

open Message

variable {σ : Type} {limits : Load.Limits} {feed : Feed σ} {cancelled : Bool}

/-! ## A run and its item -/

theorem runItem_of_invalid {shared : Shared} {request : WorkRequest} {e : InvalidConfig} (h : toSpec request.config = .error e) :
    runItem limits shared request = answerItem shared request (some (invalidItem e)) := by
  simp only [runItem, runConfig, h]

theorem runItem_of_attempt {shared : Shared} {request : WorkRequest} {spec : Load.Spec} {outcome : Load.Outcome} {own : Option Load.Draws}
    {draws : Load.Draws} (hspec : toSpec request.config = .ok spec)
    (hattempt : Load.attemptWith limits spec none shared.draws = (outcome, own, draws)) :
    runItem limits shared request = answerItem { shared with draws } request (failureOf outcome) := by
  simp only [runItem, runConfig, hspec]
  simp only [Load.attemptWith, Prod.mk.injEq] at hattempt
  obtain ⟨hattempt, -, hdraws⟩ := hattempt
  rw [hattempt, hdraws]

theorem draws_answerItem (shared : Shared) (request : WorkRequest) (failure : Option ItemFailure) :
    (answerItem shared request failure).2.draws = shared.draws := by
  cases failure <;> rfl

theorem draws_runItem {shared : Shared} {request : WorkRequest} {spec : Load.Spec} (hspec : toSpec request.config = .ok spec) :
    (runItem limits shared request).2.draws = (Load.attemptWith limits spec none shared.draws).2.2 := by
  rw [runItem_of_attempt hspec rfl, draws_answerItem]
  rfl

/-! ## Calls that are cancelled -/

namespace Ongoing

variable {call : Call} {shared : Shared} {s : σ} {ongoing : Ongoing σ}

/-! ### The kinds of steps -/

theorem step_of_waiting {request : WorkRequest} {run : Load.Run} (hitem : ongoing.item? = some (request, run))
    (hwaits : run.outcome? = none) : ongoing.step limits feed = ongoing := by
  simp only [Ongoing.step, hitem, hwaits]

theorem step_of_returned {request : WorkRequest} {run : Load.Run} (hitem : ongoing.item? = some (request, run)) {outcome : Load.Outcome}
    (hreturned : run.outcome? = some outcome) :
    ongoing.step limits feed = { ongoing with directory := run.directory }.closeItem request (failureOf outcome) := by
  simp only [Ongoing.step, hitem, hreturned]

theorem step_of_next (hitem : ongoing.item? = none) {request : WorkRequest} {shape : Shape}
    (hnext : ongoing.call.nextItem? ongoing.cancelled = some (request, shape)) :
    ongoing.step limits feed = ongoing.openItem limits request shape := by
  simp only [Ongoing.step, hitem, hnext]

theorem openItem_of_invalid {request : WorkRequest} {e : InvalidConfig} (h : toSpec request.config = .error e) (shape : Shape) :
    ongoing.openItem limits request shape =
      { ongoing with call := ⟨shape, .running request⟩ }.closeItem request (some (invalidItem e)) := by
  simp only [openItem, h]

theorem openItem_of_spec {request : WorkRequest} {spec : Load.Spec} (h : toSpec request.config = .ok spec) (shape : Shape) :
    ongoing.openItem limits request shape =
      { ongoing with
        call := ⟨shape, .running request⟩
        item? := some (request, .start limits spec none ongoing.cancelled ongoing.directory) } := by
  simp only [openItem, h]

theorem step_of_none (hitem : ongoing.item? = none) (hnext : ongoing.call.nextItem? ongoing.cancelled = none) {act : Option Act}
    {next : Call} {shared' : Shared} {s' : σ}
    (hstep : ongoing.call.step (feed.peer ongoing.cancelled) limits ongoing.shared ongoing.peer = (act, next, shared', s')) :
    ongoing.step limits feed = { ongoing with call := next, shared := shared', peer := s', acts := ongoing.acts ++ act.toList } := by
  simp only [Ongoing.step, hitem, hnext, hstep]

/-! ### Next to the call that is left alone -/

/-- Where a call stands next to the same call that is left alone. -/
inductive Truncates (limits : Load.Limits) (feed : Feed σ) (call : Call) (shared : Shared) (s : σ) (ongoing : Ongoing σ) : Prop where
  /-- It has done the same. -/
  | level (hreaches : Call.Reaches limits feed call shared s ongoing.acts (ongoing.call, ongoing.shared, ongoing.peer))
      (hitem : ongoing.item? = none)
  /-- It has done the same, and waits for the run that comes next. -/
  | within (before : Call) (earlier : Shared) (request : WorkRequest) (shape : Shape) (spec : Load.Spec) (run : Load.Run)
      (directory : Load.Directory)
      (hreaches : Call.Reaches limits feed call shared s ongoing.acts (before, earlier, ongoing.peer))
      (hnext : before.nextItem? false = some (request, shape)) (hcall : ongoing.call = ⟨shape, .running request⟩)
      (hitem : ongoing.item? = some (request, run)) (hspec : toSpec request.config = .ok spec)
      (hrun : run.Proper limits spec none earlier.draws directory ongoing.shared.draws) (hkept : run.stage ≠ .dropped)
      (hshared : ongoing.shared = { earlier with draws := ongoing.shared.draws })
  /-- It did the same until it saw its token cancelled, at the head of a loop that would have gone on. -/
  | cut (before : Call) (acts : List Act)
      (hreaches : Call.Reaches limits feed call shared s acts (before, ongoing.shared, ongoing.peer))
      (hhead : before.stage = .head ∧ ∀ item, before.shape ≠ .repeated item 0)
      (hacts : ongoing.acts = acts ++ [.sawCancelled]) (hcall : ongoing.call = .finished before.shape (.error .callCancelled))
      (hitem : ongoing.item? = none) (hcancelled : ongoing.cancelled = true)

theorem Truncates.cancel (h : Truncates limits feed call shared s ongoing) :
    Truncates limits feed call shared s (ongoing.apply limits feed .cancel) := by
  cases h with
  | level hreaches hitem =>
    simp only [apply, applyRun, hitem]
    exact .level hreaches rfl
  | within before earlier request shape spec run directory hreaches hnext hcall hitem hspec hrun hkept hshared =>
    simp only [apply, applyRun, hitem]
    exact .within before earlier request shape spec _ directory hreaches hnext hcall rfl hspec (hrun.apply .parentCancels)
      (Load.Run.stage_apply_ne_dropped hkept _ (by simp)) hshared
  | cut before acts hreaches hhead hacts hcall hitem hcancelled =>
    simp only [apply, applyRun, hitem]
    exact .cut before acts hreaches hhead hacts hcall rfl rfl

theorem Truncates.applyRun (h : Truncates limits feed call shared s ongoing) {event : Load.RunEvent} (hinner : event.isInner = true) :
    Truncates limits feed call shared s (ongoing.applyRun event) := by
  have hdrop : event ≠ .drop := by
    rintro rfl
    cases hinner
  cases h with
  | level hreaches hitem =>
    simp only [Ongoing.applyRun, hitem]
    exact .level hreaches hitem
  | within before earlier request shape spec run directory hreaches hnext hcall hitem hspec hrun hkept hshared =>
    simp only [Ongoing.applyRun, hitem]
    exact .within before earlier request shape spec _ directory hreaches hnext hcall rfl hspec (hrun.apply event)
      (Load.Run.stage_apply_ne_dropped hkept _ hdrop) (by rw [hshared])
  | cut before acts hreaches hhead hacts hcall hitem hcancelled =>
    simp only [Ongoing.applyRun, hitem]
    exact .cut before acts hreaches hhead hacts hcall hitem hcancelled

/-- The call comes to an item and is at once done with it, or waits for its run. -/
theorem truncates_openItem (hreaches : Call.Reaches limits feed call shared s ongoing.acts (ongoing.call, ongoing.shared, ongoing.peer))
    {request : WorkRequest} {shape : Shape} (hnext : ongoing.call.nextItem? false = some (request, shape)) :
    Truncates limits feed call shared s (ongoing.openItem limits request shape) := by
  cases hspec : toSpec request.config with
  | error e =>
    have hstep := Call.step_of_nextItem limits feed hnext ongoing.shared ongoing.peer
    rw [runItem_of_invalid hspec] at hstep
    rw [openItem_of_invalid hspec]
    exact .level (hreaches.step hstep) rfl
  | ok spec =>
    rw [openItem_of_spec hspec]
    exact .within ongoing.call ongoing.shared request shape spec _ ongoing.directory hreaches hnext rfl rfl hspec
      (Load.Run.proper_start limits spec none ongoing.shared.draws ongoing.cancelled ongoing.directory)
      (Load.Run.stage_start_ne_dropped limits spec none ongoing.cancelled ongoing.directory) rfl

/-- What the call makes of a run that has returned is what it makes of an item that is run at once. -/
theorem answerItem_of_returned {earlier : Shared} (shared : Shared) {request : WorkRequest} {spec : Load.Spec} {run : Load.Run}
    {directory : Load.Directory} {outcome : Load.Outcome} (hspec : toSpec request.config = .ok spec)
    (hrun : run.Proper limits spec none earlier.draws directory shared.draws) (hshared : shared = { earlier with draws := shared.draws })
    (houtcome : run.outcome? = some outcome) : answerItem shared request (failureOf outcome) = runItem limits earlier request := by
  have hprogress := hrun.progress
  rw [Load.Run.stage_of_outcome houtcome] at hprogress
  rw [runItem_of_attempt hspec hprogress.attemptWith_eq, ← hshared]

/-- The call is done with its item once the run has returned. -/
theorem truncates_closeItem {before : Call} {earlier : Shared} {request : WorkRequest} {shape : Shape} {spec : Load.Spec}
    {run : Load.Run} {directory : Load.Directory} {outcome : Load.Outcome}
    (hreaches : Call.Reaches limits feed call shared s ongoing.acts (before, earlier, ongoing.peer))
    (hnext : before.nextItem? false = some (request, shape)) (hcall : ongoing.call = ⟨shape, .running request⟩)
    (hspec : toSpec request.config = .ok spec) (hrun : run.Proper limits spec none earlier.draws directory ongoing.shared.draws)
    (hshared : ongoing.shared = { earlier with draws := ongoing.shared.draws }) (houtcome : run.outcome? = some outcome) :
    Truncates limits feed call shared s (ongoing.closeItem request (failureOf outcome)) := by
  have hnow := hreaches.step (Call.step_of_nextItem limits feed hnext earlier ongoing.peer)
  refine .level ?_ rfl
  simp only [closeItem, hcall, answerItem_of_returned ongoing.shared hspec hrun hshared houtcome]
  exact hnow

/-- The call does anything but run an item. -/
theorem truncates_step (hreaches : Call.Reaches limits feed call shared s ongoing.acts (ongoing.call, ongoing.shared, ongoing.peer))
    (hitem : ongoing.item? = none) (hnext : ongoing.call.nextItem? ongoing.cancelled = none)
    {act : Option Act} {next : Call} {shared' : Shared} {s' : σ}
    (hstep : ongoing.call.step (feed.peer ongoing.cancelled) limits ongoing.shared ongoing.peer = (act, next, shared', s')) :
    Truncates limits feed call shared s
      { ongoing with call := next, shared := shared', peer := s', acts := ongoing.acts ++ act.toList } := by
  have hlevel (h : ongoing.call.step (feed.peer false) limits ongoing.shared ongoing.peer = (act, next, shared', s')) :
      Truncates limits feed call shared s
        { ongoing with call := next, shared := shared', peer := s', acts := ongoing.acts ++ act.toList } := by
    cases act with
    | some act => exact .level (hreaches.step h) hitem
    | none =>
      obtain ⟨-, hquiet⟩ | ⟨-, act, hact⟩ := Call.step_feed limits feed false ongoing.call ongoing.shared ongoing.peer
      · rw [hquiet] at h
        cases h
        exact .level (by rwa [Option.toList_none, List.append_nil]) hitem
      · rw [h] at hact
        cases hact
  by_cases hcancelled : ongoing.cancelled = true
  · rw [hcancelled] at hnext hstep
    obtain hsame | ⟨hhead, hseen⟩ := Call.step_of_cancelled hnext ongoing.shared ongoing.peer
    · exact hlevel (hsame.symm.trans hstep)
    · rw [hseen] at hstep
      cases hstep
      exact .cut ongoing.call ongoing.acts hreaches hhead rfl rfl hitem hcancelled
  · rw [Bool.eq_false_of_not_eq_true hcancelled] at hstep
    exact hlevel hstep

theorem Truncates.step (h : Truncates limits feed call shared s ongoing) :
    Truncates limits feed call shared s (ongoing.step limits feed) := by
  cases h with
  | level hreaches hitem =>
    cases hnext : ongoing.call.nextItem? ongoing.cancelled with
    | some item =>
      rw [step_of_next hitem hnext]
      exact truncates_openItem hreaches (Call.nextItem?_of_cancelled hnext)
    | none =>
      rw [step_of_none hitem hnext rfl]
      exact truncates_step hreaches hitem hnext rfl
  | within before earlier request shape spec run directory hreaches hnext hcall hitem hspec hrun hkept hshared =>
    cases houtcome : run.outcome? with
    | none =>
      rw [step_of_waiting hitem houtcome]
      exact .within before earlier request shape spec run directory hreaches hnext hcall hitem hspec hrun hkept hshared
    | some outcome =>
      rw [step_of_returned hitem houtcome]
      exact truncates_closeItem hreaches hnext hcall hspec hrun hshared houtcome
  | cut before acts hreaches hhead hacts hcall hitem hcancelled =>
    have hquiet : ongoing.call.step (feed.peer ongoing.cancelled) limits ongoing.shared ongoing.peer =
        (none, ongoing.call, ongoing.shared, ongoing.peer) := by
      rw [hcall]
      rfl
    rw [step_of_none hitem (by rw [hcall]; rfl) hquiet, Option.toList_none, List.append_nil]
    exact .cut before acts hreaches hhead hacts hcall hitem hcancelled

theorem Truncates.apply (h : Truncates limits feed call shared s ongoing) (event : OngoingEvent) :
    Truncates limits feed call shared s (ongoing.apply limits feed event) := by
  cases event with
  | cancel => exact h.cancel
  | step => exact h.step
  | run event =>
    change Truncates limits feed call shared s (if event.isInner = true then ongoing.applyRun event else ongoing)
    split_ifs with hinner
    · exact h.applyRun hinner
    · exact h

theorem Truncates.applyAll (h : Truncates limits feed call shared s ongoing) (events : List OngoingEvent) :
    Truncates limits feed call shared s (ongoing.applyAll limits feed events) := by
  induction events generalizing ongoing with
  | nil => exact h
  | cons event events ih => exact ih (h.apply event)

/-! ### The way to the end -/

theorem cancelled_apply (limits : Load.Limits) (feed : Feed σ) (ongoing : Ongoing σ) (event : OngoingEvent) :
    (ongoing.apply limits feed event).cancelled = (ongoing.cancelled || event == .cancel) := by
  have hrun (event : Load.RunEvent) : (ongoing.applyRun event).cancelled = ongoing.cancelled := by
    unfold applyRun
    split <;> rfl
  cases event with
  | cancel => simp [apply]
  | run event =>
    change (if event.isInner = true then ongoing.applyRun event else ongoing).cancelled = _
    split_ifs
    · simp [hrun]
    · simp
  | step =>
    change (ongoing.step limits feed).cancelled = _
    cases hitem : ongoing.item? with
    | some item =>
      cases houtcome : item.2.outcome? with
      | none => simp [step_of_waiting hitem houtcome]
      | some outcome => simp [step_of_returned hitem houtcome, closeItem]
    | none =>
      cases hnext : ongoing.call.nextItem? ongoing.cancelled with
      | none => simp [step_of_none hitem hnext rfl]
      | some item =>
        rw [step_of_next hitem hnext]
        cases hspec : toSpec item.1.config with
        | error e => simp [openItem_of_invalid hspec, closeItem]
        | ok spec => simp [openItem_of_spec hspec]

/-- The token of a call is cancelled once someone cancels it. -/
theorem cancelled_applyAll (limits : Load.Limits) (feed : Feed σ) (ongoing : Ongoing σ) (events : List OngoingEvent) :
    (ongoing.applyAll limits feed events).cancelled = (ongoing.cancelled || events.contains .cancel) := by
  induction events generalizing ongoing with
  | nil => simp [applyAll]
  | cons event events ih =>
    have hstep := ih (ongoing.apply limits feed event)
    rw [cancelled_apply] at hstep
    rw [List.contains_cons, ← Bool.or_assoc, BEq.comm (a := OngoingEvent.cancel)]
    exact hstep

/-- The call can come to its end, whether or not its token is cancelled further. -/
def CanEnd (limits : Load.Limits) (feed : Feed σ) (ongoing : Ongoing σ) : Prop :=
  ∃ events, OngoingEvent.cancel ∉ events ∧ (ongoing.applyAll limits feed events).call.outcome?.isSome = true

theorem applyAll_append (limits : Load.Limits) (feed : Feed σ) (ongoing : Ongoing σ) (front back : List OngoingEvent) :
    ongoing.applyAll limits feed (front ++ back) = (ongoing.applyAll limits feed front).applyAll limits feed back :=
  List.foldl_append

theorem applyAll_step_cons (limits : Load.Limits) (feed : Feed σ) (ongoing : Ongoing σ) (events : List OngoingEvent) :
    ongoing.applyAll limits feed (.step :: events) = (ongoing.step limits feed).applyAll limits feed events := rfl

theorem applyAll_step (limits : Load.Limits) (feed : Feed σ) (ongoing : Ongoing σ) :
    ongoing.applyAll limits feed [.step] = ongoing.step limits feed := rfl

/-- The events of a run are events of the call that waits for it. -/
theorem applyAll_run {request : WorkRequest} {run : Load.Run} (hitem : ongoing.item? = some (request, run)) {events : List Load.RunEvent}
    (hinner : ∀ event ∈ events, event.isInner = true) :
    ongoing.applyAll limits feed (events.map .run) =
      { ongoing with
        item? := some (request, (run.applyAll ongoing.shared.draws events).1)
        shared := { ongoing.shared with draws := (run.applyAll ongoing.shared.draws events).2 } } := by
  induction events generalizing ongoing run with
  | nil =>
    rw [Load.Run.applyAll_nil, ← hitem]
    rfl
  | cons event events ih =>
    obtain ⟨hevent, hinner⟩ := List.forall_mem_cons.mp hinner
    have happly : ongoing.apply limits feed (.run event) = { ongoing with
        item? := some (request, (run.apply ongoing.shared.draws event).1)
        shared := { ongoing.shared with draws := (run.apply ongoing.shared.draws event).2 } } := by
      simp only [apply, applyRun, hitem, hevent, if_true]
    change (ongoing.apply limits feed (.run event)).applyAll limits feed (events.map .run) = _
    rw [happly, ih rfl hinner, Load.Run.applyAll_cons]

/-- After some events of others, the call has done one thing more, which leads it where its step leads. -/
def CanAct (limits : Load.Limits) (feed : Feed σ) (ongoing : Ongoing σ) : Prop :=
  ∃ events, OngoingEvent.cancel ∉ events ∧ (ongoing.applyAll limits feed events).acts.length = ongoing.acts.length + 1 ∧
    ∃ shared, (ongoing.applyAll limits feed events).call = (ongoing.call.step (feed.peer ongoing.cancelled) limits shared ongoing.peer).2.1

/-- A call that waits for a run can be done with it. -/
theorem canAct_of_run (feed : Feed σ) (ongoing : Ongoing σ) {earlier : Shared} {request : WorkRequest} {shape : Shape} {spec : Load.Spec} {run : Load.Run}
    {directory : Load.Directory} (hcall : ongoing.call = ⟨shape, .running request⟩) (hitem : ongoing.item? = some (request, run))
    (hspec : toSpec request.config = .ok spec) (hrun : run.Proper limits spec none earlier.draws directory ongoing.shared.draws)
    (hkept : run.stage ≠ .dropped) (hshared : ongoing.shared = { earlier with draws := ongoing.shared.draws }) :
    CanAct limits feed ongoing := by
  obtain ⟨events, hinner, hreturned⟩ := hrun.canReturn hkept
  obtain ⟨outcome, houtcome⟩ := Option.isSome_iff_exists.mp hreturned
  refine ⟨events.map .run ++ [.step], by simp, ?_⟩
  rw [applyAll_append, applyAll_run hitem hinner, applyAll_step, step_of_returned rfl houtcome]
  have hanswer := answerItem_of_returned { ongoing.shared with draws := (run.applyAll ongoing.shared.draws events).2 } hspec
    (hrun.applyAll events) (by rw [hshared]) houtcome
  refine ⟨by simp [closeItem], earlier, ?_⟩
  simp only [closeItem, hcall, hanswer]
  rfl

/-- From wherever it stands, a call that has not ended can do its next step. -/
theorem Truncates.canAct (h : Truncates limits feed call shared s ongoing) (hopen : ongoing.call.outcome? = none) :
    CanAct limits feed ongoing := by
  cases h with
  | level hreaches hitem =>
    cases hnext : ongoing.call.nextItem? ongoing.cancelled with
    | none =>
      obtain ⟨hended, -⟩ | ⟨-, act, hact⟩ := Call.step_feed limits feed ongoing.cancelled ongoing.call ongoing.shared ongoing.peer
      · rw [hopen] at hended
        cases hended
      · obtain ⟨state, hstep⟩ : ∃ state, ongoing.call.step (feed.peer ongoing.cancelled) limits ongoing.shared ongoing.peer = (some act, state) :=
          ⟨_, Prod.ext hact rfl⟩
        refine ⟨[.step], by simp, ?_⟩
        rw [applyAll_step, step_of_none hitem hnext hstep]
        exact ⟨by simp, ongoing.shared, by rw [hstep]⟩
    | some item =>
      obtain ⟨request, shape⟩ := item
      have hleads (shared : Shared) : (ongoing.call.step (feed.peer ongoing.cancelled) limits shared ongoing.peer).2.1 =
          Call.afterRun request (runItem limits shared request).1 shape := by
        rw [Call.step_of_nextItem limits feed hnext]
      cases hspec : toSpec request.config with
      | error e =>
        refine ⟨[.step], by simp, ?_⟩
        rw [applyAll_step, step_of_next hitem hnext, openItem_of_invalid hspec]
        refine ⟨by simp [closeItem], ongoing.shared, ?_⟩
        rw [hleads, runItem_of_invalid hspec]
        rfl
      | ok spec =>
        obtain ⟨events, hnone, hlength, shared', hcall⟩ := canAct_of_run feed
          { ongoing with
            call := ⟨shape, .running request⟩
            item? := some (request, .start limits spec none ongoing.cancelled ongoing.directory) }
          rfl rfl hspec (Load.Run.proper_start limits spec none ongoing.shared.draws ongoing.cancelled ongoing.directory)
          (Load.Run.stage_start_ne_dropped limits spec none ongoing.cancelled ongoing.directory) rfl
        refine ⟨.step :: events, by simpa using hnone, ?_⟩
        rw [applyAll_step_cons, step_of_next hitem hnext, openItem_of_spec hspec]
        refine ⟨hlength, shared', ?_⟩
        rw [hcall, hleads]
        rfl
  | within before earlier request shape spec run directory hreaches hnext hcall hitem hspec hrun hkept hshared =>
    exact canAct_of_run feed ongoing hcall hitem hspec hrun hkept hshared
  | cut before acts hreaches hhead hacts hcall =>
    rw [hcall] at hopen
    cases hopen

/-- How far it is to the end of the call once its token is cancelled: past the next head of the loop. -/
def turnsLeft (call : Call) : Nat :=
  match call.stage with
  | .ended _ => 0
  | .head => 1
  | .sending _ => 2
  | .running _ => 3

theorem turnsLeft_step (limits : Load.Limits) (feed : Feed σ) {call : Call} (hopen : call.outcome? = none) (shared : Shared) (s : σ) :
    turnsLeft (call.step (feed.peer true) limits shared s).2.1 < turnsLeft call := by
  obtain ⟨shape, stage⟩ := call
  cases stage with
  | ended outcome => cases hopen
  | running request => cases shape <;> simp [Call.step, Call.afterRun, turnsLeft, Call.finished]
  | sending response =>
    rw [Call.step_send]
    rcases feed.send s response with ⟨_ | _, s'⟩ <;> simp [turnsLeft, Call.finished]
  | head =>
    cases shape with
    | repeated item left => cases left <;> simp [Call.step, Feed.peer, turnsLeft, Call.finished]
    | _ => simp [Call.step, Feed.peer, turnsLeft, Call.finished]

theorem CanEnd.of_ended (h : ongoing.call.outcome?.isSome = true) : CanEnd limits feed ongoing := ⟨[], List.not_mem_nil, h⟩

theorem CanEnd.of_applyAll {events : List OngoingEvent} (hnone : OngoingEvent.cancel ∉ events)
    (h : CanEnd limits feed (ongoing.applyAll limits feed events)) : CanEnd limits feed ongoing := by
  obtain ⟨more, hmore, hended⟩ := h
  exact ⟨events ++ more, by simp [hnone, hmore], by rwa [applyAll_append]⟩

/-- A call whose token is cancelled can end, whatever its feed has in store. -/
theorem Truncates.canEnd_of_cancelled (h : Truncates limits feed call shared s ongoing) (hcancelled : ongoing.cancelled = true) :
    CanEnd limits feed ongoing := by
  induction hn : turnsLeft ongoing.call using Nat.strongRecOn generalizing ongoing with
  | ind n ih =>
    cases hopen : ongoing.call.outcome? with
    | some outcome => exact .of_ended (by rw [hopen]; rfl)
    | none =>
      obtain ⟨events, hnone, -, shared', hcall⟩ := h.canAct hopen
      refine CanEnd.of_applyAll hnone (ih _ ?_ (h.applyAll events) (by rw [cancelled_applyAll, hcancelled]; rfl) rfl)
      rw [← hn, hcall, hcancelled]
      exact turnsLeft_step limits feed hopen shared' ongoing.peer

/-- As long as it has not ended, a call has done less than the same call does until its end. -/
theorem Truncates.length_lt (h : Truncates limits feed call shared s ongoing) (hopen : ongoing.call.outcome? = none) {steps : Nat}
    (hended : (Call.run (feed.peer false) limits steps call shared s).2.1.outcome?.isSome = true) : ongoing.acts.length < steps := by
  cases h with
  | level hreaches => exact hreaches.length_lt hopen hended
  | within before earlier request shape spec run directory hreaches hnext =>
    refine hreaches.length_lt ?_ hended
    obtain ⟨shape', stage⟩ := before
    cases stage with
    | ended outcome => cases hnext
    | _ => rfl
  | cut before acts hreaches hhead hacts hcall =>
    rw [hcall] at hopen
    cases hopen

/-- A call can end if the same call ends when it is left alone. -/
theorem Truncates.canEnd_of_ends (h : Truncates limits feed call shared s ongoing) (steps : Nat)
    (hended : (Call.run (feed.peer false) limits steps call shared s).2.1.outcome?.isSome = true) : CanEnd limits feed ongoing := by
  induction hn : steps - ongoing.acts.length using Nat.strongRecOn generalizing ongoing with
  | ind n ih =>
    cases hopen : ongoing.call.outcome? with
    | some outcome => exact .of_ended (by rw [hopen]; rfl)
    | none =>
      have hless := h.length_lt hopen hended
      obtain ⟨events, hnone, hlength, -⟩ := h.canAct hopen
      refine CanEnd.of_applyAll hnone (ih _ ?_ (h.applyAll events) rfl)
      omega

end Ongoing

end LoadGenerator.Service
