import LoadGenerator.Load.Run
import LoadGenerator.Proofs.Load.Validation
import LoadGenerator.Proofs.Load.Workers

/-!
# How far a run has come

What one event can do to a run is said once, by cases, and all that is known about runs follows from these cases. The stage of a run, its token, the kinds of its workers and the draws that are left go together in seven ways; every event leads from one of them to another, or leaves the run in its own, and keeps the scratch directory to its old entries and the files of the workers that live.
-/

namespace LoadGenerator.Load

/-! ## The workers of a spec -/

namespace Spec

theorem count_processor_workers (spec : Spec) :
    spec.workers.count .processor = if spec.mode.usesCpu then spec.parallelism.toNatClampNeg else 0 := by
  obtain ⟨mode, duration, allocMb, parallelism, ioBytes, latency, errorRate⟩ := spec
  cases mode <;> simp [workers, Mode.usesCpu, Mode.usesMemory, Mode.usesDisk]

theorem count_memory_workers (spec : Spec) : spec.workers.count .memory = spec.mode.usesMemory.toNat := by
  obtain ⟨mode, duration, allocMb, parallelism, ioBytes, latency, errorRate⟩ := spec
  cases mode <;> simp [workers, Mode.usesCpu, Mode.usesMemory, Mode.usesDisk, List.count_replicate]

theorem count_disk_workers (spec : Spec) : spec.workers.count .disk = spec.mode.usesDisk.toNat := by
  obtain ⟨mode, duration, allocMb, parallelism, ioBytes, latency, errorRate⟩ := spec
  cases mode <;> simp [workers, Mode.usesCpu, Mode.usesMemory, Mode.usesDisk, List.count_replicate]

theorem length_workers (spec : Spec) : spec.workers.length = spec.workerCount := by
  obtain ⟨mode, duration, allocMb, parallelism, ioBytes, latency, errorRate⟩ := spec
  cases mode <;> simp [workers, workerCount, Mode.usesCpu, Mode.usesMemory, Mode.usesDisk]

variable {spec : Spec} {limits : Limits}

/-- The processor workers of an accepted spec are as many as its parallelism says. -/
theorem count_processor_of_accepted (h : spec.validate limits = .ok ()) (hcpu : spec.mode.usesCpu = true) :
    (spec.workers.count .processor : Int) = spec.parallelism.toInt := by
  have hpos := (validate_eq_ok_iff.mp h).parallelism hcpu
  rw [Int32.lt_iff_toInt_lt] at hpos
  rw [count_processor_workers, if_pos hcpu, Int32.toNatClampNeg]
  exact Int.toNat_of_nonneg (Int.le_of_lt hpos)

end Spec

theorem attemptWith_of_accepted {limits : Limits} {spec : Spec} (h : spec.validate limits = .ok ()) (own : Option Draws)
    (shared : Draws) :
    attemptWith limits spec own shared =
      (if (fails spec.errorRate (own.getD shared)).1 then .error .injected else .ok (),
        if own.isSome then (some (fails spec.errorRate (own.getD shared)).2, shared)
        else (none, (fails spec.errorRate (own.getD shared)).2)) := by
  cases own <;> simp [attemptWith, attempt, h]

/-- A run that comes to its workers was accepted, and its failure declined. -/
theorem accepted_of_attemptWith {limits : Limits} {spec : Spec} {own : Option Draws} {shared : Draws} {left : Option Draws × Draws}
    (h : attemptWith limits spec own shared = (.ok (), left)) :
    spec.validate limits = .ok () ∧ (fails spec.errorRate (own.getD shared)).1 = false := by
  cases hvalid : spec.validate limits with
  | error violation => cases own <;> simp [attemptWith, attempt, hvalid] at h
  | ok _ =>
    refine ⟨rfl, ?_⟩
    rw [attemptWith_of_accepted hvalid, Prod.mk.injEq] at h
    by_contra hfails
    rw [Bool.not_eq_false] at hfails
    rw [if_pos hfails] at h
    cases h.1

namespace Run

@[simp] theorem applyAll_nil (run : Run) (draws : Draws) : run.applyAll draws [] = (run, draws) := rfl

@[simp] theorem applyAll_cons (run : Run) (draws : Draws) (event : RunEvent) (events : List RunEvent) :
    run.applyAll draws (event :: events) = (run.apply draws event).1.applyAll (run.apply draws event).2 events := rfl

/-! ## What an event can do -/

/-- What one event makes of a run and the shared draws. -/
inductive Applied (run : Run) (draws : Draws) : RunEvent → Run × Draws → Prop where
  | parentCancels : Applied run draws .parentCancels ({ run.cancel with parentCancelled := true }, draws)
  | deadline : Applied run draws .deadline (run.cancel, draws)
  | decides (event : RunEvent) (hevent : event = .latencyElapsed ∨ event = .resume) (hstage : run.stage = .waiting) :
      Applied run draws event (run.decideFault draws)
  | launches (worker : Worker) (pending : List Worker) (hstage : run.stage = .working (worker :: pending)) :
      Applied run draws .launch ({ run with stage := .working pending, workers := run.workers ++ [.start run.spec worker] }, draws)
  | moves (place : Nat) (move : Move) : Applied run draws (.move place move) (run.moveWorker place move, draws)
  | joins (place : Nat) (hstage : run.stage = .working []) : Applied run draws (.join place) (run.joinWorker place, draws)
  | concludes (hstage : run.stage = .working []) (hall : run.workers.all (·.joined) = true) :
      Applied run draws .conclude (run.finish (.ok ()), draws)
  | drops (hstage : run.stage = .waiting ∨ ∃ pending, run.stage = .working pending) :
      Applied run draws .drop ({ run.cancel with stage := .dropped }, draws)
  | stays (event : RunEvent) (hevent : event ≠ .parentCancels) : Applied run draws event (run, draws)

theorem applied (run : Run) (draws : Draws) (event : RunEvent) : Applied run draws event (run.apply draws event) := by
  unfold Run.apply
  split
  next => exact .parentCancels
  next => exact .deadline
  next hstage => exact .decides _ (.inl rfl) hstage
  next hstage =>
    split_ifs
    · exact .decides _ (.inr rfl) hstage
    · exact .stays _ (by simp)
  next worker pending hstage => exact .launches worker pending hstage
  next place move => exact .moves place move
  next place hstage => exact .joins place hstage
  next hstage =>
    split_ifs with hall
    · exact .concludes hstage hall
    · exact .stays _ (by simp)
  next hstage => exact .drops (.inl hstage)
  next pending hstage => exact .drops (.inr ⟨pending, hstage⟩)
  next hother _ _ _ _ _ _ _ _ _ => exact .stays _ hother

/-- Deciding about the injected failure ends the run or brings it to its workers. -/
theorem decideFault_eq (run : Run) (draws : Draws) :
    ∃ own rest, run.decideFault draws = ({ run with own }.finish (.error .injected), rest) ∨
      run.decideFault draws = ({ run with own, stage := .working run.spec.workers }, rest) := by
  unfold Run.decideFault
  obtain ⟨failed, rest⟩ := fails run.spec.errorRate (run.own.getD draws)
  cases failed with
  | true => exact ⟨_, _, .inl rfl⟩
  | false => exact ⟨_, _, .inr rfl⟩

/-- A move changes workers and the scratch directory only. -/
theorem moveWorker_eq (run : Run) (place : Nat) (move : Move) :
    ∃ workers directory, run.moveWorker place move = { run with workers, directory } := by
  unfold Run.moveWorker
  split <;> exact ⟨_, _, rfl⟩

theorem joinWorker_eq (run : Run) (place : Nat) : ∃ workers, run.joinWorker place = { run with workers } := by
  unfold Run.joinWorker
  split <;> exact ⟨_, rfl⟩

/-! ## The account of a run -/

/-- How far a run that was started with these limits, spec and draws has come: its stage, its token, the kinds of its workers, and the draws that are left. -/
inductive Progress (limits : Limits) (spec : Spec) (own : Option Draws) (shared : Draws) :
    RunStage → Option Bool → List Worker → Option Draws × Draws → Prop where
  | refused (violation : Violation) (h : spec.validate limits = .error violation) :
      Progress limits spec own shared (.returned (.error (.invalid violation))) none [] (own, shared)
  | waiting (cancelled : Bool) (h : spec.validate limits = .ok ()) :
      Progress limits spec own shared .waiting (some cancelled) [] (own, shared)
  | injected (left : Option Draws × Draws) (haccepted : spec.validate limits = .ok ())
      (h : attemptWith limits spec own shared = (.error .injected, left)) :
      Progress limits spec own shared (.returned (.error .injected)) (some true) [] left
  | working (kinds pending : List Worker) (cancelled : Bool) (left : Option Draws × Draws)
      (h : attemptWith limits spec own shared = (.ok (), left)) (hworkers : kinds ++ pending = spec.workers) :
      Progress limits spec own shared (.working pending) (some cancelled) kinds left
  | done (left : Option Draws × Draws) (h : attemptWith limits spec own shared = (.ok (), left)) :
      Progress limits spec own shared (.returned (.ok ())) (some true) spec.workers left
  | droppedEarly (h : spec.validate limits = .ok ()) : Progress limits spec own shared .dropped (some true) [] (own, shared)
  | dropped (kinds pending : List Worker) (left : Option Draws × Draws)
      (h : attemptWith limits spec own shared = (.ok (), left)) (hworkers : kinds ++ pending = spec.workers) :
      Progress limits spec own shared .dropped (some true) kinds left

/-- What holds at every moment of a run that was started like this. -/
structure Proper (limits : Limits) (spec : Spec) (own : Option Draws) (shared : Draws) (before : Directory) (run : Run)
    (draws : Draws) : Prop where
  spec_eq : run.spec = spec
  progress : Progress limits spec own shared run.stage run.token (run.workers.map (·.kind)) (run.own, draws)
  /-- The run's token is a child of the one of its parent. -/
  follows : run.parentCancelled = true → run.token ≠ some false
  kinds : ∀ worker ∈ run.workers, ∀ kind, worker.stage.kind? = some kind → kind = worker.kind
  reported : ∀ worker ∈ run.workers, worker.joined = true → worker.stage.isLive = false
  concluded : run.outcome?.isSome = true → ∀ worker ∈ run.workers, worker.joined = true
  holds : before.Holds run.files run.directory

variable {limits : Limits} {spec : Spec} {own : Option Draws} {shared draws : Draws} {before : Directory} {run : Run}

theorem proper_start (limits : Limits) (spec : Spec) (own : Option Draws) (shared : Draws) (parentCancelled : Bool)
    (before : Directory) : Proper limits spec own shared before (start limits spec own parentCancelled before) shared := by
  unfold start
  cases hvalid : spec.validate limits with
  | error violation =>
    exact {
      spec_eq := rfl
      progress := .refused violation hvalid
      follows := by simp
      kinds := by simp
      reported := by simp
      concluded := by simp
      holds := .initial before }
  | ok _ =>
    exact {
      spec_eq := rfl
      progress := .waiting parentCancelled hvalid
      follows := by simp
      kinds := by simp
      reported := by simp
      concluded := by simp
      holds := .initial before }

/-! ## One event -/

theorem progress_cancel {stage : RunStage} {token : Option Bool} {kinds : List Worker} {left : Option Draws × Draws}
    (h : Progress limits spec own shared stage token kinds left) :
    Progress limits spec own shared stage (token.map fun _ => true) kinds left := by
  cases h with
  | refused violation h => exact .refused violation h
  | waiting cancelled h => exact .waiting true h
  | injected left haccepted h => exact .injected left haccepted h
  | working kinds pending cancelled left h hworkers => exact .working kinds pending true left h hworkers
  | done left h => exact .done left h
  | droppedEarly h => exact .droppedEarly h
  | dropped kinds pending left h hworkers => exact .dropped kinds pending left h hworkers

theorem Proper.cancel (h : Proper limits spec own shared before run draws) :
    Proper limits spec own shared before run.cancel draws :=
  { h with
    progress := progress_cancel h.progress
    follows := fun _ => by cases run.token <;> simp [Run.cancel, *] }

theorem Proper.parentCancels (h : Proper limits spec own shared before run draws) :
    Proper limits spec own shared before { run.cancel with parentCancelled := true } draws :=
  { h.cancel with follows := fun _ => by cases run.token <;> simp [Run.cancel, *] }

theorem Proper.waiting (h : Proper limits spec own shared before run draws) (hstage : run.stage = .waiting) :
    spec.validate limits = .ok () ∧ run.own = own ∧ draws = shared ∧ run.workers = [] ∧ ∃ cancelled, run.token = some cancelled := by
  have hprogress := h.progress
  rw [hstage] at hprogress
  generalize hleft : (run.own, draws) = left at hprogress
  generalize hkinds : run.workers.map (·.kind) = kinds at hprogress
  generalize htoken : run.token = token at hprogress
  cases hprogress with
  | waiting cancelled hvalid =>
    obtain ⟨hown, hdraws⟩ := Prod.mk.inj hleft
    exact ⟨hvalid, hown, hdraws, List.map_eq_nil_iff.mp hkinds, cancelled, rfl⟩

theorem decideFault_cases (hvalid : run.spec.validate limits = .ok ()) (draws : Draws) :
    (∃ left, attemptWith limits run.spec run.own draws = (.error .injected, left) ∧
      run.decideFault draws = ({ run with own := left.1 }.finish (.error .injected), left.2)) ∨
    ∃ left, attemptWith limits run.spec run.own draws = (.ok (), left) ∧
      run.decideFault draws = ({ run with own := left.1, stage := .working run.spec.workers }, left.2) := by
  rw [attemptWith_of_accepted hvalid]
  unfold Run.decideFault
  obtain ⟨failed, rest⟩ := fails run.spec.errorRate (run.own.getD draws)
  cases failed with
  | true => exact .inl ⟨_, rfl, rfl⟩
  | false => exact .inr ⟨_, rfl, rfl⟩

theorem Proper.decideFault (h : Proper limits spec own shared before run draws) (hstage : run.stage = .waiting) :
    Proper limits spec own shared before (run.decideFault draws).1 (run.decideFault draws).2 := by
  obtain ⟨hvalid, hown, hdraws, hworkers, cancelled, htoken⟩ := h.waiting hstage
  have hvalid' : run.spec.validate limits = .ok () := by rw [h.spec_eq, hvalid]
  obtain ⟨left, hattempt, heq⟩ | ⟨left, hattempt, heq⟩ := decideFault_cases hvalid' draws <;>
    rw [h.spec_eq, hown, hdraws] at hattempt
  · rw [heq]
    exact {
      spec_eq := h.spec_eq
      progress := by
        simp only [finish, Run.cancel, htoken, hworkers]
        exact .injected left hvalid hattempt
      follows := by simp [finish, Run.cancel, htoken]
      kinds := h.kinds
      reported := h.reported
      concluded := by simp [finish, Run.cancel, hworkers]
      holds := h.holds }
  · rw [heq]
    exact {
      spec_eq := h.spec_eq
      progress := by
        simp only [htoken, hworkers]
        exact .working [] _ cancelled left hattempt (by rw [h.spec_eq]; rfl)
      follows := h.follows
      kinds := h.kinds
      reported := h.reported
      concluded := by simp [outcome?]
      holds := h.holds }

theorem Proper.working (h : Proper limits spec own shared before run draws) {pending : List Worker}
    (hstage : run.stage = .working pending) :
    attemptWith limits spec own shared = (.ok (), run.own, draws) ∧ run.workers.map (·.kind) ++ pending = spec.workers ∧
      ∃ cancelled, run.token = some cancelled := by
  have hprogress := h.progress
  rw [hstage] at hprogress
  generalize run.workers.map (·.kind) = kinds at hprogress
  generalize run.token = token at hprogress
  cases hprogress with
  | working kinds pending cancelled left hattempt hworkers => exact ⟨hattempt, hworkers, cancelled, rfl⟩

theorem Proper.launch (h : Proper limits spec own shared before run draws) {worker : Worker} {pending : List Worker}
    (hstage : run.stage = .working (worker :: pending)) :
    Proper limits spec own shared before
      { run with stage := .working pending, workers := run.workers ++ [.start run.spec worker] } draws := by
  obtain ⟨hattempt, hworkers, cancelled, htoken⟩ := h.working hstage
  exact {
    spec_eq := h.spec_eq
    progress := by
      simp only [htoken, List.map_append, List.map_cons, List.map_nil]
      exact .working _ pending cancelled _ hattempt (by rw [List.append_assoc]; exact hworkers)
    follows := h.follows
    kinds := by
      intro started hmem kind hkind
      obtain hmem | hmem := List.mem_append.mp hmem
      · exact h.kinds started hmem kind hkind
      · obtain rfl := List.mem_singleton.mp hmem
        exact Option.some.inj (hkind.symm.trans (WorkerStage.kind?_start run.spec worker))
    reported := by
      intro started hmem hjoined
      obtain hmem | hmem := List.mem_append.mp hmem
      · exact h.reported started hmem hjoined
      · obtain rfl := List.mem_singleton.mp hmem
        cases hjoined
    concluded := by simp [outcome?]
    holds := by
      have hnone : (WorkerStage.start run.spec worker).file? = none := by cases worker <;> rfl
      simpa [files, WorkerThread.start, hnone] using h.holds }

theorem Proper.conclude (h : Proper limits spec own shared before run draws) (hstage : run.stage = .working [])
    (hall : run.workers.all (·.joined) = true) : Proper limits spec own shared before (run.finish (.ok ())) draws := by
  obtain ⟨hattempt, hworkers, cancelled, htoken⟩ := h.working hstage
  rw [List.append_nil] at hworkers
  exact {
    spec_eq := h.spec_eq
    progress := by
      simp only [finish, Run.cancel, htoken, hworkers]
      exact .done _ hattempt
    follows := by simp [finish, Run.cancel, htoken]
    kinds := h.kinds
    reported := h.reported
    concluded := fun _ => List.all_eq_true.mp hall
    holds := h.holds }

theorem Proper.drop (h : Proper limits spec own shared before run draws)
    (hstage : run.stage = .waiting ∨ ∃ pending, run.stage = .working pending) :
    Proper limits spec own shared before { run.cancel with stage := .dropped } draws := by
  have hprogress : Progress limits spec own shared .dropped (run.token.map fun _ => true) (run.workers.map (·.kind)) (run.own, draws) := by
    obtain hstage | ⟨pending, hstage⟩ := hstage
    · obtain ⟨hvalid, hown, hdraws, hworkers, cancelled, htoken⟩ := h.waiting hstage
      rw [hown, hdraws, hworkers, htoken]
      exact .droppedEarly hvalid
    · obtain ⟨hattempt, hworkers, cancelled, htoken⟩ := h.working hstage
      rw [htoken]
      exact .dropped _ pending _ hattempt hworkers
  exact { h.cancel with
    progress := hprogress
    concluded := by simp [outcome?] }

/-- A worker can be set apart from those before and behind it. -/
theorem split_at_place {workers : List WorkerThread} {place : Nat} {worker : WorkerThread} (h : workers[place]? = some worker) :
    ∃ front back, workers = front ++ worker :: back ∧ ∀ worker', workers.set place worker' = front ++ worker' :: back := by
  obtain ⟨hplace, rfl⟩ := List.getElem?_eq_some_iff.mp h
  refine ⟨workers.take place, workers.drop (place + 1), ?_, fun worker' => List.set_eq_take_append_cons_drop .. |>.trans (if_pos hplace)⟩
  rw [← List.drop_eq_getElem_cons, List.take_append_drop]

/-- The files of workers, with the one of a worker set apart. -/
theorem files_around (front back : List WorkerThread) (worker : WorkerThread) :
    (front ++ worker :: back).filterMap (fun worker => worker.stage.file?) =
      front.filterMap (fun worker => worker.stage.file?) ++
        (worker.stage.file?.toList ++ back.filterMap fun worker => worker.stage.file?) := by
  cases hfile : worker.stage.file? <;> simp [hfile]

/-- An event of one worker keeps the account if it leaves the kind of the worker as it is, and the facts about this worker hold again. -/
theorem Proper.change (h : Proper limits spec own shared before run draws) {front back : List WorkerThread} {worker worker' : WorkerThread}
    {directory : Directory} (hworkers : run.workers = front ++ worker :: back) (hkind : worker'.kind = worker.kind)
    (hkinds : ∀ kind, worker'.stage.kind? = some kind → kind = worker'.kind)
    (hreported : worker'.joined = true → worker'.stage.isLive = false) (hjoined : worker.joined = true → worker'.joined = true)
    (hholds : before.Holds ((front ++ worker' :: back).filterMap fun worker => worker.stage.file?) directory) :
    Proper limits spec own shared before { run with workers := front ++ worker' :: back, directory } draws := by
  have hother : ∀ other ∈ front ++ worker' :: back, other ∈ run.workers ∨ other = worker' := by
    intro other hmem
    rw [hworkers]
    simp only [List.mem_append, List.mem_cons] at hmem ⊢
    tauto
  exact {
    spec_eq := h.spec_eq
    progress := by
      have hprogress := h.progress
      rw [hworkers] at hprogress
      simpa [hkind] using hprogress
    follows := h.follows
    kinds := by
      intro other hmem kind hkind'
      obtain hmem | rfl := hother other hmem
      · exact h.kinds other hmem kind hkind'
      · exact hkinds kind hkind'
    reported := by
      intro other hmem hother'
      obtain hmem | rfl := hother other hmem
      · exact h.reported other hmem hother'
      · exact hreported hother'
    concluded := by
      intro hreturned other hmem
      obtain hmem | rfl := hother other hmem
      · exact h.concluded hreturned other hmem
      · exact hjoined (h.concluded hreturned worker (by simp [hworkers]))
    holds := hholds }

theorem Proper.moveWorker (h : Proper limits spec own shared before run draws) (place : Nat) (move : Move) :
    Proper limits spec own shared before (run.moveWorker place move) draws := by
  unfold Run.moveWorker
  cases hplace : run.workers[place]? with
  | none => exact h
  | some worker =>
    obtain ⟨front, back, hworkers, hset⟩ := split_at_place hplace
    have hmem : worker ∈ run.workers := by simp [hworkers]
    simp only [hset]
    refine h.change hworkers rfl ?_ ?_ id ?_
    · intro kind hkind
      obtain hsame | hnone := WorkerStage.kind?_next run.spec.ioBytes.toNatClampNeg run.isCancelled run.directory worker.stage move
      · exact h.kinds worker hmem kind (hsame.symm.trans hkind)
      · rw [hnone] at hkind
        cases hkind
    · intro hjoined
      have hended := h.reported worker hmem hjoined
      rw [WorkerStage.next_of_not_isLive hended]
      exact hended
    · have hholds := h.holds
      rw [files, hworkers, files_around] at hholds
      rw [files_around]
      exact WorkerStage.next_holds hholds move

theorem Proper.joinWorker (h : Proper limits spec own shared before run draws) (place : Nat) :
    Proper limits spec own shared before (run.joinWorker place) draws := by
  unfold Run.joinWorker
  cases hplace : run.workers[place]? with
  | none => exact h
  | some worker =>
    obtain ⟨front, back, hworkers, hset⟩ := split_at_place hplace
    have hmem : worker ∈ run.workers := by simp [hworkers]
    simp only [hset]
    refine h.change hworkers rfl (h.kinds worker hmem) ?_ (fun hjoined => by simp [hjoined]) ?_
    · intro hjoined
      obtain hjoined | hended := Bool.or_eq_true_iff.mp hjoined
      · exact h.reported worker hmem hjoined
      · simpa using hended
    · have hholds := h.holds
      rw [files, hworkers, files_around] at hholds
      rw [files_around]
      exact hholds

/-- Every event keeps the account. -/
theorem Proper.apply (h : Proper limits spec own shared before run draws) (event : RunEvent) :
    Proper limits spec own shared before (run.apply draws event).1 (run.apply draws event).2 := by
  have happlied := applied run draws event
  generalize run.apply draws event = after at happlied ⊢
  cases happlied with
  | parentCancels => exact h.parentCancels
  | deadline => exact h.cancel
  | decides _ _ hstage => exact h.decideFault hstage
  | launches worker pending hstage => exact h.launch hstage
  | moves place move => exact h.moveWorker place move
  | joins place => exact h.joinWorker place
  | concludes hstage hall => exact h.conclude hstage hall
  | drops hstage => exact h.drop hstage
  | stays => exact h

theorem Proper.applyAll (h : Proper limits spec own shared before run draws) (events : List RunEvent) :
    Proper limits spec own shared before (run.applyAll draws events).1 (run.applyAll draws events).2 := by
  induction events generalizing run draws with
  | nil => exact h
  | cons event events ih => exact ih (h.apply event)

/-- A run does not cancel its parent. -/
theorem parentCancelled_apply (run : Run) (draws : Draws) (event : RunEvent) :
    (run.apply draws event).1.parentCancelled = (run.parentCancelled || event == .parentCancels) := by
  have happlied := applied run draws event
  generalize run.apply draws event = after at happlied ⊢
  cases happlied with
  | decides _ hevent =>
    obtain ⟨own, rest, heq | heq⟩ := decideFault_eq run draws <;> obtain rfl | rfl := hevent <;> simp [heq, finish, Run.cancel]
  | moves place move =>
    obtain ⟨workers, directory, heq⟩ := moveWorker_eq run place move
    simp [heq]
  | joins place =>
    obtain ⟨workers, heq⟩ := joinWorker_eq run place
    simp [heq]
  | stays _ hevent => simp [beq_eq_false_iff_ne.mpr hevent]
  | parentCancels | deadline | launches | concludes | drops => simp [finish, Run.cancel]

theorem parentCancelled_applyAll (run : Run) (draws : Draws) (events : List RunEvent) :
    (run.applyAll draws events).1.parentCancelled = (run.parentCancelled || events.contains .parentCancels) := by
  induction events generalizing run draws with
  | nil => simp
  | cons event events ih =>
    have hstep := ih (run.apply draws event).1 (run.apply draws event).2
    rw [parentCancelled_apply] at hstep
    rw [List.contains_cons, ← Bool.or_assoc, BEq.comm (a := RunEvent.parentCancels)]
    exact hstep

theorem stage_start_ne_dropped (limits : Limits) (spec : Spec) (own : Option Draws) (parentCancelled : Bool) (directory : Directory) :
    (start limits spec own parentCancelled directory).stage ≠ .dropped := by
  unfold start
  cases spec.validate limits <;> simp

/-- A run is given up by its caller only. -/
theorem stage_apply_ne_dropped (hkept : run.stage ≠ .dropped) (draws : Draws) {event : RunEvent} (hevent : event ≠ .drop) :
    (run.apply draws event).1.stage ≠ .dropped := by
  have happlied := applied run draws event
  generalize run.apply draws event = after at happlied ⊢
  cases happlied with
  | parentCancels | deadline | stays => exact hkept
  | decides => obtain ⟨own, rest, heq | heq⟩ := decideFault_eq run draws <;> simp [heq, finish]
  | launches | concludes => simp [finish]
  | moves place move =>
    obtain ⟨workers, directory, heq⟩ := moveWorker_eq run place move
    exact heq ▸ hkept
  | joins place =>
    obtain ⟨workers, heq⟩ := joinWorker_eq run place
    exact heq ▸ hkept
  | drops => exact absurd rfl hevent

/-! ## What the account says -/

theorem stage_of_outcome {outcome : Outcome} (h : run.outcome? = some outcome) : run.stage = .returned outcome := by
  unfold outcome? at h
  split at h
  next hstage => rw [hstage, Option.some.inj h]
  next => cases h

section Progress

variable {stage : RunStage} {token : Option Bool} {kinds : List Worker} {left : Option Draws × Draws} {outcome : Outcome}

theorem Progress.started_in_order (h : Progress limits spec own shared stage token kinds left) : kinds <+: spec.workers := by
  cases h with
  | refused | waiting | injected | droppedEarly => exact List.nil_prefix
  | working _ pending _ _ _ hworkers => exact ⟨pending, hworkers⟩
  | dropped _ pending _ _ hworkers => exact ⟨pending, hworkers⟩
  | done => exact List.prefix_rfl

theorem Progress.accepted_of_started (h : Progress limits spec own shared stage token kinds left) (hne : kinds ≠ []) :
    spec.validate limits = .ok () ∧ (fails spec.errorRate (own.getD shared)).1 = false := by
  cases h with
  | refused | waiting | injected | droppedEarly => exact absurd rfl hne
  | working _ _ _ _ hattempt => exact accepted_of_attemptWith hattempt
  | dropped _ _ _ hattempt => exact accepted_of_attemptWith hattempt
  | done _ hattempt => exact accepted_of_attemptWith hattempt

/-- A run returns what its limits, its spec and its draws have decided before it began. -/
theorem Progress.attemptWith_eq (h : Progress limits spec own shared (.returned outcome) token kinds left) :
    attemptWith limits spec own shared = (outcome, left) := by
  cases h with
  | refused violation hvalid => cases own <;> simp [attemptWith, attempt, hvalid]
  | injected _ _ hattempt => exact hattempt
  | done _ hattempt => exact hattempt

/-- The draws of a run are those from before it, or those that are left when it has decided. -/
theorem Progress.left_cases (h : Progress limits spec own shared stage token kinds left) :
    left = (own, shared) ∨ left = (attemptWith limits spec own shared).2 := by
  cases h with
  | refused | waiting | droppedEarly => exact .inl rfl
  | injected _ _ hattempt => exact .inr (by rw [hattempt])
  | working _ _ _ _ hattempt => exact .inr (by rw [hattempt])
  | done _ hattempt => exact .inr (by rw [hattempt])
  | dropped _ _ _ hattempt => exact .inr (by rw [hattempt])

theorem Progress.kinds_of_returned (h : Progress limits spec own shared (.returned outcome) token kinds left) :
    kinds = if outcome = .ok () then spec.workers else [] := by
  cases h with
  | refused | injected => exact (if_neg (by simp)).symm
  | done => exact (if_pos rfl).symm

/-- A run that has returned or was given up has cancelled its token, which it has from the moment that its spec is accepted. -/
theorem Progress.token_of_left (h : Progress limits spec own shared stage token kinds left)
    (hleft : stage = .dropped ∨ ∃ outcome, stage = .returned outcome) :
    token = if spec.validate limits = .ok () then some true else none := by
  cases h with
  | refused violation hvalid => exact (if_neg (by simp [hvalid])).symm
  | injected _ hvalid => exact (if_pos hvalid).symm
  | done _ hattempt => exact (if_pos (accepted_of_attemptWith hattempt).1).symm
  | droppedEarly hvalid => exact (if_pos hvalid).symm
  | dropped _ _ _ hattempt => exact (if_pos (accepted_of_attemptWith hattempt).1).symm
  | waiting | working => simp at hleft

end Progress

theorem Proper.not_isLive_of_returned (h : Proper limits spec own shared before run draws) (hreturned : run.outcome?.isSome = true) :
    ∀ worker ∈ run.workers, worker.stage.isLive = false := fun worker hmem =>
  h.reported worker hmem (h.concluded hreturned worker hmem)

/-- A file of the run belongs to a disk worker that lives. -/
theorem Proper.owner_of_file (h : Proper limits spec own shared before run draws) {file : String} (hfile : file ∈ run.files) :
    ∃ worker ∈ run.workers, worker.kind = .disk ∧ worker.stage.isLive = true ∧ worker.stage.file? = some file := by
  obtain ⟨worker, hmem, hworker⟩ := List.mem_filterMap.mp hfile
  have hkind := WorkerStage.kind?_of_file? hworker
  exact ⟨worker, hmem, (h.kinds worker hmem _ hkind).symm, by rw [WorkerStage.isLive_eq_isSome_kind?, hkind]; rfl, hworker⟩

theorem Proper.files_of_returned (h : Proper limits spec own shared before run draws) (hreturned : run.outcome?.isSome = true) :
    run.files = [] := by
  refine List.eq_nil_iff_forall_not_mem.mpr fun file hfile => ?_
  obtain ⟨worker, hmem, -, hlive, -⟩ := h.owner_of_file hfile
  rw [h.not_isLive_of_returned hreturned worker hmem] at hlive
  cases hlive

/-- There is never more than one file, since there is at most one disk worker. -/
theorem Proper.length_files_le (h : Proper limits spec own shared before run draws) : run.files.length ≤ 1 := by
  have hdisk : ∀ worker ∈ run.workers, worker.stage.file?.isSome = true → (worker.kind == .disk) = true := by
    intro worker hmem hfile
    obtain ⟨file, hfile⟩ := Option.isSome_iff_exists.mp hfile
    rw [← h.kinds worker hmem _ (WorkerStage.kind?_of_file? hfile)]
    rfl
  calc run.files.length
    _ = run.workers.countP (fun worker => worker.stage.file?.isSome) := List.length_filterMap_eq_countP
    _ ≤ run.workers.countP (fun worker => worker.kind == .disk) := List.countP_mono_left hdisk
    _ = (run.workers.map (·.kind)).count .disk := by rw [List.count, List.countP_map]; rfl
    _ ≤ spec.workers.count .disk := h.progress.started_in_order.sublist.count_le _
    _ ≤ 1 := by rw [Spec.count_disk_workers]; exact Bool.toNat_le _

end Run

end LoadGenerator.Load
