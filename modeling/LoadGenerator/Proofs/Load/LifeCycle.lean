import LoadGenerator.Proofs.Load.Progress

/-!
# What every run keeps to

Whatever the order of its events, a run starts no worker before its spec is accepted and the injected failure declined, and then exactly the workers of the spec. It returns only when each of them has ended, which leaves the scratch directory as it was. Its outcome is the one that its limits, its spec and its draws have before it begins, and from wherever it stands it can return.
-/

namespace LoadGenerator.Load

namespace Run

variable {limits : Limits} {spec : Spec} {own : Option Draws} {shared draws : Draws} {before : Directory} {run : Run}

/-! ## The way to the end -/

/-- The run and its workers can take it to its end. -/
def CanReturn (run : Run) (draws : Draws) : Prop :=
  ∃ events : List RunEvent, (∀ event ∈ events, event.isInner = true) ∧ (run.applyAll draws events).1.outcome?.isSome = true

theorem CanReturn.of_returned (h : run.outcome?.isSome = true) : CanReturn run draws := ⟨[], by simp, h⟩

theorem CanReturn.of_apply (event : RunEvent) (hevent : event.isInner = true)
    (h : CanReturn (run.apply draws event).1 (run.apply draws event).2) : CanReturn run draws := by
  obtain ⟨events, hinner, hreturned⟩ := h
  exact ⟨event :: events, List.forall_mem_cons.mpr ⟨hevent, hinner⟩, hreturned⟩

/-- How much the workers have before them, their reports included. -/
def pendingMoves (workers : List WorkerThread) : Nat :=
  (workers.map fun worker => worker.stage.remaining + (!worker.joined).toNat).sum

theorem pendingMoves_change {front back : List WorkerThread} {worker worker' : WorkerThread}
    (h : worker'.stage.remaining + (!worker'.joined).toNat < worker.stage.remaining + (!worker.joined).toNat) :
    pendingMoves (front ++ worker' :: back) < pendingMoves (front ++ worker :: back) := by
  simp only [pendingMoves, List.map_append, List.map_cons, List.sum_append, List.sum_cons]
  omega

/-- Once its workers are started and its token is cancelled, a run gets the report of each. -/
theorem canReturn_of_started (hstage : run.stage = .working []) (htoken : run.token = some true) : CanReturn run draws := by
  induction hn : pendingMoves run.workers using Nat.strongRecOn generalizing run with
  | ind n ih =>
    by_cases hall : run.workers.all (·.joined) = true
    · exact CanReturn.of_apply .conclude rfl (.of_returned (by simp [Run.apply, hstage, hall, finish, outcome?]))
    · obtain ⟨worker, hmem, hjoined⟩ : ∃ worker ∈ run.workers, worker.joined = false := by simpa using hall
      obtain ⟨place, hplace⟩ := List.getElem?_of_mem hmem
      obtain ⟨front, back, hworkers, hset⟩ := split_at_place hplace
      cases hlive : worker.stage.isLive with
      | true =>
        obtain ⟨move, hless⟩ := WorkerStage.exists_move run.spec.ioBytes.toNatClampNeg run.directory hlive
        have hmove : run.apply draws (.move place move) = ({ run with
            workers := front ++ { worker with
              stage := (worker.stage.next run.spec.ioBytes.toNatClampNeg true run.directory move).1 } :: back
            directory := (worker.stage.next run.spec.ioBytes.toNatClampNeg true run.directory move).2 }, draws) := by
          simp [Run.apply, Run.moveWorker, hplace, hset, isCancelled, htoken]
        refine CanReturn.of_apply (.move place move) rfl ?_
        rw [hmove]
        refine ih _ ?_ hstage htoken rfl
        rw [← hn, hworkers]
        exact pendingMoves_change (by simpa using hless)
      | false =>
        have hjoin : run.apply draws (.join place) = ({ run with workers := front ++ { worker with joined := true } :: back }, draws) := by
          simp [Run.apply, hstage, Run.joinWorker, hplace, hset, hlive]
        refine CanReturn.of_apply (.join place) rfl ?_
        rw [hjoin]
        refine ih _ ?_ hstage htoken rfl
        rw [← hn, hworkers]
        exact pendingMoves_change (by simp [hjoined])

theorem canReturn_of_working {pending : List Worker} (hstage : run.stage = .working pending) (htoken : run.token = some true) :
    CanReturn run draws := by
  induction pending generalizing run with
  | nil => exact canReturn_of_started hstage htoken
  | cons worker pending ih =>
    have hlaunch : run.apply draws .launch =
        ({ run with stage := .working pending, workers := run.workers ++ [.start run.spec worker] }, draws) := by
      simp [Run.apply, hstage]
    refine CanReturn.of_apply .launch rfl ?_
    rw [hlaunch]
    exact ih rfl htoken

/-- The deadline cancels the token of a run that is not at its end, and the run and its workers do the rest. -/
theorem canReturn_of_live (hlive : run.stage = .waiting ∨ ∃ pending, run.stage = .working pending) (htoken : run.token.isSome = true) :
    CanReturn run draws := by
  have hcancelled : run.cancel.token = some true := by
    obtain ⟨cancelled, htoken⟩ := Option.isSome_iff_exists.mp htoken
    rw [Run.cancel, htoken, Option.map_some]
  refine CanReturn.of_apply .deadline rfl (?_ : CanReturn run.cancel draws)
  obtain hwaiting | ⟨pending, hworking⟩ := hlive
  · have happly : run.cancel.apply draws .latencyElapsed = run.cancel.decideFault draws := by
      simp [Run.apply, Run.cancel, hwaiting]
    refine CanReturn.of_apply .latencyElapsed rfl ?_
    rw [happly]
    obtain ⟨own, rest, heq | heq⟩ := decideFault_eq run.cancel draws <;> rw [heq]
    · exact .of_returned rfl
    · exact canReturn_of_working rfl hcancelled
  · exact canReturn_of_working hworking hcancelled

/-- Wherever a run stands that was not given up, its deadline and its workers can take it to its end. -/
theorem Proper.canReturn (h : Proper limits spec own shared before run draws) (hkept : run.stage ≠ .dropped) :
    CanReturn run draws := by
  cases hstage : run.stage with
  | returned outcome => exact .of_returned (by simp [outcome?, hstage])
  | working pending =>
    obtain ⟨-, -, cancelled, htoken⟩ := h.working hstage
    exact canReturn_of_live (.inr ⟨pending, hstage⟩) (Option.isSome_of_eq_some htoken)
  | waiting =>
    obtain ⟨-, -, -, -, cancelled, htoken⟩ := h.waiting hstage
    exact canReturn_of_live (.inl hstage) (Option.isSome_of_eq_some htoken)
  | dropped => exact absurd hstage hkept

/-! ## The life of a run -/

/-- What a run that was started like this keeps to, after these events. -/
structure LifeCycle (limits : Limits) (spec : Spec) (own : Option Draws) (shared : Draws) (parentCancelled : Bool)
    (before : Directory) (events : List RunEvent) (run : Run) : Prop where
  /-- No worker is started before the spec is accepted and the injected failure declined. -/
  accepted : run.workers ≠ [] → spec.validate limits = .ok () ∧ (fails spec.errorRate (own.getD shared)).1 = false
  /-- The outcome is the one that the limits, the spec and the draws have before the run begins. -/
  outcome : ∀ outcome, run.outcome? = some outcome → outcome = (attemptWith limits spec own shared).1
  /-- Where the spec is accepted and the injected failure declined, a run that returns has done its work. -/
  works : spec.validate limits = .ok () → (fails spec.errorRate (own.getD shared)).1 = false → run.outcome?.isSome = true → run.outcome? = some (.ok ())
  /-- The workers are started in order, and none that the spec does not ask for. -/
  started : run.workers.map (·.kind) <+: spec.workers
  /-- A run that does its work has started all of them when it returns. -/
  worked : run.outcome? = some (.ok ()) →
    ((run.workers.countP (·.kind = .processor) : Nat) : Int) =
        (if spec.mode = .cpu ∨ spec.mode = .cpuMem then spec.parallelism.toInt else 0) ∧
      run.workers.countP (·.kind = .memory) = (if spec.mode = .mem ∨ spec.mode = .cpuMem then 1 else 0) ∧
      run.workers.countP (·.kind = .disk) = (if spec.mode = .io then 1 else 0) ∧
      run.workers.length = spec.workerCount
  /-- A run that fails has started none. -/
  failed : ∀ error, run.outcome? = some (.error error) → run.workers = []
  ended : run.outcome?.isSome = true → ∀ worker ∈ run.workers, worker.stage.isLive = false
  /-- A scratch file is there only while the disk worker lives. -/
  owned : ∀ file ∈ run.files, ∃ worker ∈ run.workers, worker.kind = .disk ∧ worker.stage.isLive = true ∧ worker.stage.file? = some file
  single : run.files.length ≤ 1
  /-- The directory has its old entries and the files of the run, and when the run returns its old entries only. -/
  account : before.Holds run.files run.directory
  restored : run.outcome?.isSome = true → before.Holds [] run.directory
  /-- Nothing but its own owner cancels the parent. -/
  parent : run.parentCancelled = (parentCancelled || events.contains .parentCancels)
  /-- However the run is left, its own token is cancelled if there is one. -/
  token : run.outcome?.isSome = true ∨ run.stage = .dropped → run.token = if spec.validate limits = .ok () then some true else none

theorem countP_kind (workers : List WorkerThread) (kind : Worker) :
    workers.countP (fun worker => worker.kind = kind) = (workers.map (·.kind)).count kind := by
  rw [List.count, List.countP_map]
  rfl

theorem Proper.worked (h : Proper limits spec own shared before run draws) (hreturned : run.outcome? = some (.ok ())) :
    ((run.workers.countP (·.kind = .processor) : Nat) : Int) =
        (if spec.mode = .cpu ∨ spec.mode = .cpuMem then spec.parallelism.toInt else 0) ∧
      run.workers.countP (·.kind = .memory) = (if spec.mode = .mem ∨ spec.mode = .cpuMem then 1 else 0) ∧
      run.workers.countP (·.kind = .disk) = (if spec.mode = .io then 1 else 0) ∧
      run.workers.length = spec.workerCount := by
  have hprogress := h.progress
  rw [stage_of_outcome hreturned] at hprogress
  have hvalid := (accepted_of_attemptWith hprogress.attemptWith_eq).1
  have hkinds : run.workers.map (·.kind) = spec.workers := hprogress.kinds_of_returned.trans (if_pos rfl)
  have hlength : run.workers.length = spec.workers.length := by rw [← hkinds, List.length_map]
  simp only [countP_kind, hkinds, hlength, Spec.length_workers, Spec.count_memory_workers, Spec.count_disk_workers]
  refine ⟨?_, ?_, ?_, trivial⟩
  · have hmode : spec.mode.usesCpu = true ↔ spec.mode = .cpu ∨ spec.mode = .cpuMem := by cases spec.mode <;> simp [Mode.usesCpu]
    by_cases hcpu : spec.mode.usesCpu = true
    · rw [Spec.count_processor_of_accepted hvalid hcpu, if_pos (hmode.mp hcpu)]
    · rw [Spec.count_processor_workers, if_neg hcpu, if_neg (mt hmode.mpr hcpu)]
      rfl
  · cases spec.mode <;> rfl
  · cases spec.mode <;> rfl

theorem Proper.outcome_eq (h : Proper limits spec own shared before run draws) {outcome : Outcome} (hreturned : run.outcome? = some outcome) :
    outcome = (attemptWith limits spec own shared).1 := by
  have hprogress := h.progress
  rw [stage_of_outcome hreturned] at hprogress
  rw [hprogress.attemptWith_eq]

theorem Proper.works (h : Proper limits spec own shared before run draws) (hvalid : spec.validate limits = .ok ())
    (hdeclined : (fails spec.errorRate (own.getD shared)).1 = false) (hreturned : run.outcome?.isSome = true) : run.outcome? = some (.ok ()) := by
  obtain ⟨outcome, houtcome⟩ := Option.isSome_iff_exists.mp hreturned
  have heq := h.outcome_eq houtcome
  rw [attemptWith_of_accepted hvalid, hdeclined] at heq
  rw [houtcome, heq]
  rfl

/-- Every run keeps to its life cycle, whatever the order of its events: timers, cancellation by the parent, the loss of its caller, and the progress and the failures of its workers. And unless it was given up, it can return from wherever it stands. -/
theorem life_cycle (limits : Limits) (spec : Spec) (own : Option Draws) (shared : Draws) (parentCancelled : Bool) (before : Directory)
    (events : List RunEvent) :
    let (run, draws) := (start limits spec own parentCancelled before).applyAll shared events
    LifeCycle limits spec own shared parentCancelled before events run ∧ (run.stage = .dropped ∨ CanReturn run draws) := by
  have h := (proper_start limits spec own shared parentCancelled before).applyAll events
  have hparent := parentCancelled_applyAll (start limits spec own parentCancelled before) shared events
  revert h hparent
  generalize (start limits spec own parentCancelled before).applyAll shared events = after
  obtain ⟨run, draws⟩ := after
  intro h hparent
  refine ⟨?_, ?_⟩
  · exact {
      accepted := fun hne => h.progress.accepted_of_started (by simpa using hne)
      outcome := fun outcome => h.outcome_eq
      works := h.works
      started := h.progress.started_in_order
      worked := h.worked
      failed := by
        intro error hreturned
        have hprogress := h.progress
        rw [stage_of_outcome hreturned] at hprogress
        exact List.map_eq_nil_iff.mp (hprogress.kinds_of_returned.trans (if_neg (by simp)))
      ended := h.not_isLive_of_returned
      owned := fun file => h.owner_of_file
      single := h.length_files_le
      account := h.holds
      restored := fun hreturned => h.files_of_returned hreturned ▸ h.holds
      parent := by
        rw [hparent]
        congr 1
        unfold start
        split <;> rfl
      token := by
        intro hleft
        refine h.progress.token_of_left ?_
        obtain hreturned | hdropped := hleft
        · obtain ⟨outcome, houtcome⟩ := Option.isSome_iff_exists.mp hreturned
          exact .inr ⟨outcome, stage_of_outcome houtcome⟩
        · exact .inl hdropped }
  · by_cases hdropped : run.stage = .dropped
    · exact .inl hdropped
    · exact .inr (h.canReturn hdropped)

/-- A disk worker writes to its file until the deadline, and the run does its work and leaves the directory as it was. -/
theorem life_cycle_disk_worker :
    let spec : Spec := { mode := .io, duration := ⟨1000000⟩, allocMb := 0, parallelism := 0, ioBytes := 10, latency := ⟨0⟩, errorRate := .ofQuotient false 1 4 }
    let shared := Draws.always (.ofQuotient false 1 2)
    let events : List RunEvent := [.resume, .launch, .move 0 (.create "scratch"), .move 0 .step, .deadline, .move 0 .step, .join 0, .conclude]
    let started := start .unbounded spec none false (some ["other"])
    let run := (started.applyAll shared events).1
    (started.applyAll shared (events.take 4)).1.directory = some ["other", "scratch"] ∧
      LifeCycle .unbounded spec none shared false (some ["other"]) events run ∧
      run.outcome? = some (.ok ()) ∧ run.workers.map (·.kind) = [.disk] ∧ run.workers.length = spec.workerCount ∧
      run.directory = some ["other"] ∧ run.token = some true := by
  intro spec shared events started run
  have hlife (given : List RunEvent) : LifeCycle .unbounded spec none shared false (some ["other"]) given (started.applyAll shared given).1 :=
    (life_cycle .unbounded spec none shared false (some ["other"]) given).1
  have hvalid : spec.validate .unbounded = .ok () := by decide
  have hreturned : run.outcome?.isSome = true := by decide +kernel
  have houtcome := (hlife events).works hvalid (by decide +kernel) hreturned
  obtain ⟨-, -, -, hlength⟩ := (hlife events).worked houtcome
  have htoken := (hlife events).token (.inl hreturned)
  rw [if_pos hvalid] at htoken
  have hdirectory : (started.applyAll shared (events.take 4)).1.directory = some ["other", "scratch"] ∧
      run.workers.map (·.kind) = [.disk] ∧ run.directory = some ["other"] := by decide +kernel
  exact ⟨hdirectory.1, hlife events, houtcome, hdirectory.2.1, hlength, hdirectory.2.2, htoken⟩

end Run

end LoadGenerator.Load
