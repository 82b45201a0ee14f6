import LoadGenerator.Load.Runs
import LoadGenerator.Proofs.Load.Drawing
import Mathlib.Data.List.Sort

/-!
# Sources shared by runs

The runs of an engine take their draws one after another, whatever the order in which they go on, and each draw is the next value of its source at that time. Which run takes which value depends on that order, but no value is taken twice or left out, and what a run returns follows from its spec and its own draw.
-/

namespace LoadGenerator

namespace Load

/-! ## Turns -/

/-- A draw: the run that took it, the source that it came from, and its value. -/
structure Turn where
  place : Nat
  source? : Option Nat
  value : Binary64

/-- What the run at a place has drawn. -/
def drawnAt (turns : List Turn) (place : Nat) : Option Binary64 := (turns.find? (·.place == place)).map (·.value)

theorem drawnAt_eq_none_iff {turns : List Turn} {place : Nat} : drawnAt turns place = none ↔ place ∉ turns.map (·.place) := by
  simp [drawnAt]

theorem drawnAt_append (turns : List Turn) (turn : Turn) (place : Nat) :
    drawnAt (turns ++ [turn]) place = (drawnAt turns place).or (if turn.place = place then some turn.value else none) := by
  unfold drawnAt
  rw [List.find?_append]
  cases turns.find? (·.place == place) with
  | some found => rfl
  | none => by_cases h : turn.place = place <;> simp [h]

namespace Engine

/-- The draws that the runs of an engine have taken since its start, in their order: each run at most one, each the next value of its source at that time. -/
structure History (start : Engine) (turns : List Turn) (engine : Engine) : Prop where
  limits_eq : engine.limits = start.limits
  sources_eq : ∀ name, engine.source name =
    { start.source name with taken := (start.source name).taken + turns.countP (·.source? = name) }
  nodup : (turns.map (·.place)).Nodup
  value_eq : ∀ k turn, turns[k]? = some turn → turn.value =
    (start.source turn.source?).stream ((start.source turn.source?).taken + (turns.take k).countP (·.source? = turn.source?))
  owner : ∀ turn ∈ turns, ∃ entry, engine.runs[turn.place]? = some entry ∧ entry.source? = turn.source?
  stands : ∀ place entry, engine.runs[place]? = some entry → Stands engine.limits (drawnAt turns place) entry.run

variable {start engine : Engine} {turns : List Turn} {entry : EngineRun} {place : Nat}

theorem history_start (hruns : start.runs = []) : History start [] start where
  limits_eq := rfl
  sources_eq name := rfl
  nodup := List.nodup_nil
  value_eq := nofun
  owner := nofun
  stands place entry h := by
    rw [hruns] at h
    cases h

theorem History.startRun (h : History start turns engine) (spec : Spec) (source? : Option Nat) (parentCancelled : Bool) :
    History start turns (engine.startRun spec source? parentCancelled) where
  limits_eq := h.limits_eq
  sources_eq name := by
    rw [← h.sources_eq name]
    cases name <;> rfl
  nodup := h.nodup
  value_eq := h.value_eq
  owner turn hturn := by
    obtain ⟨entry, hentry, hsource⟩ := h.owner turn hturn
    exact ⟨entry, by rw [Engine.startRun, List.getElem?_append_left (List.getElem?_eq_some_iff.mp hentry).1, hentry], hsource⟩
  stands place entry hentry := by
    rw [Engine.startRun, List.getElem?_append] at hentry
    split_ifs at hentry with hplace
    · exact h.stands place entry hentry
    · have hnone : drawnAt turns place = none := by
        rw [drawnAt_eq_none_iff, List.mem_map]
        rintro ⟨turn, hturn, rfl⟩
        obtain ⟨other, hother, -⟩ := h.owner turn hturn
        exact hplace (List.getElem?_eq_some_iff.mp hother).1
      rw [hnone]
      obtain ⟨hindex, rfl⟩ := List.getElem?_eq_some_iff.mp hentry
      rw [List.getElem_singleton]
      exact stands_start _ _ _ _ _

theorem applyAt_eq (hentry : engine.runs[place]? = some entry) (event : RunEvent) :
    engine.applyAt place event =
      let result := (engine.load entry).apply engine.draws event
      { engine with
        draws := result.2
        sources := fun name => if entry.source? = some name then result.1.own.getD (engine.sources name) else engine.sources name
        directory := result.1.directory
        runs := engine.runs.set place { entry with run := result.1 } } := by
  rw [applyAt, hentry]

theorem load_own (engine : Engine) (entry : EngineRun) : (engine.load entry).own.getD engine.draws = engine.source entry.source? := by
  cases hsource : entry.source? <;> simp [load, source, hsource]

theorem source_applyAt_of_nothing {event : RunEvent} (hentry : engine.runs[place]? = some entry)
    (hown : ((engine.load entry).apply engine.draws event).1.own = (engine.load entry).own)
    (hdraws : ((engine.load entry).apply engine.draws event).2 = engine.draws) (name : Option Nat) :
    (engine.applyAt place event).source name = engine.source name := by
  rw [applyAt_eq hentry]
  cases name with
  | none => exact hdraws
  | some name =>
    simp only [source, hown]
    by_cases hname : entry.source? = some name <;> simp [load, hname]

theorem source_applyAt_of_draw {event : RunEvent} (hentry : engine.runs[place]? = some entry)
    (hafter : (((engine.load entry).apply engine.draws event).1.own, ((engine.load entry).apply engine.draws event).2) =
      (engine.load entry).afterDraw engine.draws) (name : Option Nat) :
    (engine.applyAt place event).source name = if entry.source? = name then (engine.source name).next.2 else engine.source name := by
  rw [applyAt_eq hentry]
  obtain ⟨hown, hdraws⟩ := Prod.mk.inj hafter
  simp only [hown, hdraws]
  cases hsource : entry.source? with
  | none => cases name <;> simp [source, load, hsource]
  | some own =>
    cases name with
    | none => simp [source, load, hsource]
    | some name => by_cases hname : own = name <;> simp [source, load, hsource, hname]

theorem runs_applyAt (hentry : engine.runs[place]? = some entry) (event : RunEvent) :
    (engine.applyAt place event).runs = engine.runs.set place { entry with run := ((engine.load entry).apply engine.draws event).1 } := by
  rw [applyAt_eq hentry]

theorem limits_applyAt (hentry : engine.runs[place]? = some entry) (event : RunEvent) : (engine.applyAt place event).limits = engine.limits := by
  rw [applyAt_eq hentry]

theorem History.owner_applyAt (h : History start turns engine) (hentry : engine.runs[place]? = some entry) (event : RunEvent) {turn : Turn}
    (hturn : turn ∈ turns) : ∃ entry, (engine.applyAt place event).runs[turn.place]? = some entry ∧ entry.source? = turn.source? := by
  obtain ⟨other, hother, hsource⟩ := h.owner turn hturn
  rw [runs_applyAt hentry, List.getElem?_set]
  split_ifs with heq hplace
  · rw [← heq, hentry] at hother
    obtain rfl := Option.some.inj hother
    exact ⟨_, rfl, hsource⟩
  · exact absurd (List.getElem?_eq_some_iff.mp hentry).1 hplace
  · exact ⟨other, hother, hsource⟩

/-- An event of a run leaves the other runs with their draws. -/
theorem History.stands_applyAt (h : History start turns engine) (hentry : engine.runs[place]? = some entry) {event : RunEvent}
    {turns' : List Turn} (hmine : Stands engine.limits (drawnAt turns' place) ((engine.load entry).apply engine.draws event).1)
    (hothers : ∀ other ≠ place, drawnAt turns' other = drawnAt turns other) (other : Nat) (found : EngineRun)
    (hfound : (engine.applyAt place event).runs[other]? = some found) :
    Stands (engine.applyAt place event).limits (drawnAt turns' other) found.run := by
  rw [runs_applyAt hentry, List.getElem?_set] at hfound
  rw [limits_applyAt hentry]
  split_ifs at hfound with heq
  · subst heq
    obtain rfl := Option.some.inj hfound
    exact hmine
  · rw [hothers other (Ne.symm heq)]
    exact h.stands other found hfound

/-- The next value of a source is the one behind those that were drawn from it. -/
theorem History.value_concat (h : History start turns engine) {new : Turn} (hvalue : new.value = (engine.source new.source?).next.1)
    (k : Nat) (turn : Turn) (hturn : (turns ++ [new])[k]? = some turn) :
    turn.value = (start.source turn.source?).stream ((start.source turn.source?).taken +
      ((turns ++ [new]).take k).countP (·.source? = turn.source?)) := by
  rw [List.getElem?_append] at hturn
  split_ifs at hturn with hk
  · rw [List.take_append_of_le_length (Nat.le_of_lt hk)]
    exact h.value_eq k turn hturn
  · obtain ⟨hindex, rfl⟩ := List.getElem?_eq_some_iff.mp hturn
    obtain rfl : k = turns.length := by
      rw [List.length_singleton] at hindex
      omega
    rw [List.getElem_singleton, List.take_left, hvalue, h.sources_eq]
    rfl

theorem History.nodup_concat (h : History start turns engine) {turn : Turn} (hfirst : drawnAt turns turn.place = none) :
    ((turns ++ [turn]).map (·.place)).Nodup := by
  rw [List.map_append, List.nodup_append]
  refine ⟨h.nodup, List.nodup_singleton _, ?_⟩
  rintro _ hmem _ hnew rfl
  obtain rfl := List.mem_singleton.mp hnew
  exact drawnAt_eq_none_iff.mp hfirst hmem

/-- An event of a run leaves the history as it is, or adds the turn of that run. -/
theorem History.applyAt (h : History start turns engine) (hentry : engine.runs[place]? = some entry) (event : RunEvent) :
    History start turns (engine.applyAt place event) ∨
      entry.run.stage = .waiting ∧
        ∃ value, History start (turns ++ [⟨place, entry.source?, value⟩]) (engine.applyAt place event) := by
  have hloaded : Stands engine.limits (drawnAt turns place) (engine.load entry) := (h.stands place entry hentry).same rfl rfl rfl
  have hlimits := (limits_applyAt hentry event).trans h.limits_eq
  cases hloaded.takes engine.draws event with
  | nothing hown hdraws hmine =>
    exact .inl {
      limits_eq := hlimits
      sources_eq := fun name => (source_applyAt_of_nothing hentry hown hdraws name).trans (h.sources_eq name)
      nodup := h.nodup
      value_eq := h.value_eq
      owner := fun turn => h.owner_applyAt hentry event
      stands := h.stands_applyAt hentry hmine fun _ _ => rfl }
  | draw hwaiting hfirst hafter hmine =>
    rw [load_own] at hmine
    refine .inr ⟨hwaiting, (engine.source entry.source?).next.1, ?_⟩
    exact {
      limits_eq := hlimits
      sources_eq := by
        intro name
        rw [source_applyAt_of_draw hentry hafter, h.sources_eq name, List.countP_append, List.countP_singleton]
        split_ifs with hname <;> simp_all [Draws.next, Nat.add_assoc]
      nodup := h.nodup_concat hfirst
      value_eq := h.value_concat rfl
      owner := by
        intro turn hturn
        obtain hold | hnew := List.mem_append.mp hturn
        · exact h.owner_applyAt hentry event hold
        · obtain rfl := List.mem_singleton.mp hnew
          rw [runs_applyAt hentry]
          exact ⟨_, List.getElem?_set_self (List.getElem?_eq_some_iff.mp hentry).1, rfl⟩
      stands := by
        refine h.stands_applyAt hentry ?_ ?_
        · rw [drawnAt_append, hfirst, if_pos rfl]
          exact hmine
        · intro other hother
          rw [drawnAt_append, if_neg (Ne.symm hother), Option.or_none] }

/-! ## One run after another -/

/-- Each run is started when those before it have returned. -/
def Serially (engine : Engine) : List EngineEvent → Prop
  | [] => True
  | event :: events =>
    (event.started?.isSome = true → ∀ entry ∈ engine.runs, entry.run.outcome?.isSome = true) ∧ (engine.apply event).Serially events

/-- Only the last run may not have returned, and the draws were taken in the order of the starts. -/
structure Orderly (turns : List Turn) (engine : Engine) : Prop where
  returned : ∀ place entry, engine.runs[place]? = some entry → place + 1 < engine.runs.length → entry.run.outcome?.isSome = true
  sorted : (turns.map (·.place)).Pairwise (· < ·)

theorem Orderly.startRun (h : Orderly turns engine) (hreturned : ∀ entry ∈ engine.runs, entry.run.outcome?.isSome = true) (spec : Spec)
    (source? : Option Nat) (parentCancelled : Bool) : Orderly turns (engine.startRun spec source? parentCancelled) where
  returned place entry hentry hearlier := by
    rw [Engine.startRun, List.length_append, List.length_singleton] at hearlier
    rw [Engine.startRun, List.getElem?_append_left (by omega)] at hentry
    exact hreturned entry (List.mem_of_getElem? hentry)
  sorted := h.sorted

theorem Orderly.applyAt (h : Orderly turns engine) (hentry : engine.runs[place]? = some entry) (event : RunEvent) :
    Orderly turns (engine.applyAt place event) where
  returned other found hfound hearlier := by
    simp only [applyAt_eq hentry, List.length_set] at hfound hearlier
    rw [List.getElem?_set] at hfound
    split_ifs at hfound with hplace
    · subst hplace
      obtain rfl := Option.some.inj hfound
      have hloaded : (engine.load entry).outcome?.isSome = true := h.returned place entry hentry hearlier
      exact (congrArg Option.isSome (Run.outcome_apply hloaded engine.draws event)).trans hloaded
    · exact h.returned other found hfound hearlier
  sorted := h.sorted

/-- The run that draws is the last one, behind all that have drawn. -/
theorem Orderly.sorted_turn (h : Orderly turns engine) (hhistory : History start turns engine) (hentry : engine.runs[place]? = some entry)
    (hwaiting : entry.run.stage = .waiting) {turn : Turn} (hplace : turn.place = place)
    (hnodup : ((turns ++ [turn]).map (·.place)).Nodup) : ((turns ++ [turn]).map (·.place)).Pairwise (· < ·) := by
  have hlast : engine.runs.length ≤ place + 1 := by
    by_contra hearlier
    have hreturned := h.returned place entry hentry (by omega)
    rw [Run.outcome?, hwaiting] at hreturned
    cases hreturned
  rw [List.map_append, List.nodup_append] at hnodup
  rw [List.map_append, List.pairwise_append]
  refine ⟨h.sorted, List.pairwise_singleton _ _, ?_⟩
  intro earlier hearlier later hlater
  have hne := hnodup.2.2 earlier hearlier later hlater
  obtain rfl := List.mem_singleton.mp hlater
  obtain ⟨other, hother, rfl⟩ := List.mem_map.mp hearlier
  obtain ⟨found, hfound, -⟩ := hhistory.owner other hother
  have hlength := (List.getElem?_eq_some_iff.mp hfound).1
  simp only [hplace] at hne ⊢
  omega

theorem History.apply (h : History start turns engine) (event : EngineEvent) :
    ∃ turns', History start turns' (engine.apply event) ∧
      (Orderly turns engine → (event.started?.isSome = true → ∀ entry ∈ engine.runs, entry.run.outcome?.isSome = true) →
        Orderly turns' (engine.apply event)) := by
  cases event with
  | start spec source? parentCancelled =>
    exact ⟨turns, h.startRun spec source? parentCancelled, fun horderly hreturned => horderly.startRun (hreturned rfl) ..⟩
  | run place event =>
    cases hentry : engine.runs[place]? with
    | none =>
      rw [Engine.apply, Engine.applyAt, hentry]
      exact ⟨turns, h, fun horderly _ => horderly⟩
    | some entry =>
      rcases h.applyAt hentry event with hsame | ⟨hwaiting, value, hturn⟩
      · exact ⟨turns, hsame, fun horderly _ => horderly.applyAt hentry event⟩
      · exact ⟨_, hturn, fun horderly _ =>
          ⟨(horderly.applyAt hentry event).returned, horderly.sorted_turn h hentry hwaiting rfl hturn.nodup⟩⟩

theorem History.applyAll (h : History start turns engine) (events : List EngineEvent) :
    ∃ turns', History start turns' (engine.applyAll events) ∧
      (Orderly turns engine → engine.Serially events → Orderly turns' (engine.applyAll events)) := by
  induction events generalizing turns engine with
  | nil => exact ⟨turns, h, fun horderly _ => horderly⟩
  | cons event events ih =>
    obtain ⟨turns', h', horderly'⟩ := h.apply event
    obtain ⟨turns'', h'', horderly''⟩ := ih h'
    exact ⟨turns'', h'', fun horderly hserially => horderly'' (horderly' horderly hserially.1) hserially.2⟩

theorem runs_applyAll (engine : Engine) (events : List EngineEvent) :
    (engine.applyAll events).runs.map (fun entry => (entry.run.spec, entry.source?)) =
      engine.runs.map (fun entry => (entry.run.spec, entry.source?)) ++ events.filterMap EngineEvent.started? := by
  induction events generalizing engine with
  | nil => simp [applyAll]
  | cons event events ih =>
    rw [show engine.applyAll (event :: events) = (engine.apply event).applyAll events from rfl, ih]
    cases event with
    | start spec source? parentCancelled =>
      have hspec : (Run.start engine.limits spec (source?.map engine.sources) parentCancelled engine.directory).spec = spec := by
        unfold Run.start
        cases spec.validate engine.limits <;> rfl
      simp [Engine.apply, Engine.startRun, EngineEvent.started?, hspec]
    | run place event =>
      rw [List.filterMap_cons_none rfl, Engine.apply]
      cases hentry : engine.runs[place]? with
      | none => rw [Engine.applyAt, hentry]
      | some entry =>
        rw [applyAt_eq hentry, List.map_set, Run.spec_apply]
        refine congrArg (· ++ _) (List.ext_getElem? fun other => ?_)
        rw [List.getElem?_set]
        split_ifs with hother hplace
        · rw [← hother, List.getElem?_map, hentry]
          rfl
        · exact absurd (by simpa using (List.getElem?_eq_some_iff.mp hentry).1) hplace
        · rfl

/-! ## The way to the end -/

theorem load_applyAt (hentry : engine.runs[place]? = some entry) (event : RunEvent) :
    ∃ entry', (engine.applyAt place event).runs[place]? = some entry' ∧
      (engine.applyAt place event).load entry' = ((engine.load entry).apply engine.draws event).1 ∧
      (engine.applyAt place event).draws = ((engine.load entry).apply engine.draws event).2 := by
  have hplace : place < engine.runs.length := (List.getElem?_eq_some_iff.mp hentry).1
  have hown := Run.own_apply (engine.load entry) engine.draws event
  rw [applyAt_eq hentry]
  refine ⟨_, List.getElem?_set_self hplace, ?_, rfl⟩
  revert hown
  generalize (engine.load entry).apply engine.draws event = result
  intro hown
  obtain ⟨⟨spec, own, stage, parentCancelled, token, workers, directory⟩, draws⟩ := result
  cases hsource : entry.source? <;> cases own <;> simp_all [load]

theorem load_applyAll (hentry : engine.runs[place]? = some entry) (events : List RunEvent) :
    ∃ entry', (engine.applyAll (events.map (.run place))).runs[place]? = some entry' ∧
      (engine.applyAll (events.map (.run place))).load entry' = ((engine.load entry).applyAll engine.draws events).1 := by
  induction events generalizing engine entry with
  | nil => exact ⟨entry, hentry, rfl⟩
  | cons event events ih =>
    obtain ⟨next, hnext, hload, hdraws⟩ := load_applyAt hentry event
    obtain ⟨last, hlast, hrest⟩ := ih hnext
    rw [hload, hdraws] at hrest
    exact ⟨last, hlast, hrest⟩

/-- A run that was not given up goes on to its end, whatever the others do not do. -/
theorem History.canReturn (h : History start turns engine) (hentry : engine.runs[place]? = some entry) :
    entry.run.stage = .dropped ∨ ∃ events : List RunEvent, (∀ event ∈ events, event.isInner = true) ∧
      ∃ entry', (engine.applyAll (events.map (.run place))).runs[place]? = some entry' ∧ entry'.run.outcome?.isSome = true := by
  have hstands : Stands engine.limits (drawnAt turns place) (engine.load entry) := (h.stands place entry hentry).same rfl rfl rfl
  have hreach (hreturns : (engine.load entry).CanReturn engine.draws) :
      ∃ events : List RunEvent, (∀ event ∈ events, event.isInner = true) ∧
        ∃ entry', (engine.applyAll (events.map (.run place))).runs[place]? = some entry' ∧ entry'.run.outcome?.isSome = true := by
    obtain ⟨events, hinner, hreturned⟩ := hreturns
    obtain ⟨entry', hentry', hload⟩ := load_applyAll hentry events
    rw [← hload] at hreturned
    exact ⟨events, hinner, entry', hentry', hreturned⟩
  cases hstands with
  | refused _ _ hstage _ => exact .inr (hreach (.of_returned (by simp [Run.outcome?, hstage])))
  | injected _ hstage _ => exact .inr (hreach (.of_returned (by simp [Run.outcome?, hstage])))
  | done _ hstage _ => exact .inr (hreach (.of_returned (by simp [Run.outcome?, hstage])))
  | waiting _ hstage htoken _ => exact .inr (hreach (Run.canReturn_of_live (.inl hstage) htoken))
  | working pending _ hstage htoken _ => exact .inr (hreach (Run.canReturn_of_live (.inr ⟨pending, hstage⟩) htoken))
  | dropped _ hstage _ => exact .inl hstage

/-! ## The account of the draws -/

/-- What holds of the runs of an engine whose own source goes through these values, after these events: the draws that were taken so far, and what the runs return. -/
structure Accounts (values : List Binary64) (start : Engine) (events : List EngineEvent) (turns : List Turn) (engine : Engine) : Prop where
  /-- The runs are those that were started. -/
  started : engine.runs.map (fun entry => (entry.run.spec, entry.source?)) = events.filterMap EngineEvent.started?
  once : (turns.map (·.place)).Nodup
  /-- Each draw is for a run that needs one, and from the source of that run. -/
  asked : ∀ turn ∈ turns, ∃ entry, engine.runs[turn.place]? = some entry ∧ entry.source? = turn.source? ∧
    entry.run.spec.NeedsDraw start.limits
  /-- A source is taken from for these draws only. -/
  taken : ∀ name, engine.source name =
    { start.source name with taken := (start.source name).taken + turns.countP (·.source? = name) }
  /-- Each draw is the next value of its source. -/
  next : ∀ k turn, turns[k]? = some turn → turn.value =
    (start.source turn.source?).stream ((start.source turn.source?).taken + (turns.take k).countP (·.source? = turn.source?))
  /-- The source of the engine goes through its values over and over. -/
  cycle : ∀ k turn, turns[k]? = some turn → turn.source? = none → (turns.take k).countP (·.source? = none) < 2 ^ 64 →
    values[(turns.take k).countP (·.source? = none) % values.length]? = some turn.value
  returns : ∀ place entry outcome, engine.runs[place]? = some entry → entry.run.outcome? = some outcome →
    Settles start.limits entry.run.spec (drawnAt turns place) outcome
  /-- A run that was not given up can come to its end. -/
  canReturn : ∀ place entry, engine.runs[place]? = some entry →
    entry.run.stage = .dropped ∨ ∃ inner : List RunEvent, (∀ event ∈ inner, event.isInner = true) ∧
      ∃ entry', (engine.applyAll (inner.map (.run place))).runs[place]? = some entry' ∧ entry'.run.outcome?.isSome = true
  /-- Runs that follow one another draw in the order of their starts. -/
  inOrder : start.Serially events → (∀ entry ∈ engine.runs, entry.run.outcome?.isSome = true) → turns.map (·.place) =
    (List.range engine.runs.length).filter fun place => engine.runs[place]?.any fun entry => entry.run.spec.NeedsDraw start.limits

theorem Draws.getElem?_cycle {values : List Binary64} (hvalues : values ≠ []) {k : Nat} (hk : k < 2 ^ 64) :
    values[k % values.length]? = some ((Draws.cycle values).stream k) := by
  have hless : k % values.length < values.length := Nat.mod_lt _ (List.length_pos_iff.mpr hvalues)
  have hsize : k % UInt64.size = k := Nat.mod_eq_of_lt hk
  change _ = some ((values[k % UInt64.size % values.length]?).getD Binary64.zero)
  rw [hsize, List.getElem?_eq_getElem hless, Option.getD_some]

theorem History.asked (h : History start turns engine) {turn : Turn} (hturn : turn ∈ turns) :
    ∃ entry, engine.runs[turn.place]? = some entry ∧ entry.source? = turn.source? ∧ entry.run.spec.NeedsDraw start.limits := by
  obtain ⟨entry, hentry, hsource⟩ := h.owner turn hturn
  have hstands := h.stands turn.place entry hentry
  refine ⟨entry, hentry, hsource, ?_⟩
  cases hdrawn : drawnAt turns turn.place with
  | none => exact absurd (List.mem_map_of_mem hturn) (drawnAt_eq_none_iff.mp hdrawn)
  | some value =>
    rw [hdrawn, h.limits_eq] at hstands
    exact hstands.needsDraw

theorem History.inOrder (h : History start turns engine) (horderly : Orderly turns engine)
    (hreturned : ∀ entry ∈ engine.runs, entry.run.outcome?.isSome = true) : turns.map (·.place) =
      (List.range engine.runs.length).filter fun place => engine.runs[place]?.any fun entry => entry.run.spec.NeedsDraw start.limits := by
  refine horderly.sorted.eq_of_mem_iff (List.pairwise_lt_range.filter _) fun place => ?_
  rw [List.mem_filter, List.mem_range, Option.any_eq_true]
  constructor
  · intro hmem
    obtain ⟨turn, hturn, rfl⟩ := List.mem_map.mp hmem
    obtain ⟨entry, hentry, -, hneeds⟩ := h.asked hturn
    exact ⟨(List.getElem?_eq_some_iff.mp hentry).1, entry, hentry, decide_eq_true hneeds⟩
  · rintro ⟨-, entry, hentry, hneeds⟩
    obtain ⟨outcome, houtcome⟩ := Option.isSome_iff_exists.mp (hreturned entry (List.mem_of_getElem? hentry))
    have hdrawn := (((h.stands place entry hentry).settles houtcome).draws).mpr (h.limits_eq ▸ of_decide_eq_true hneeds)
    by_contra hnever
    rw [drawnAt_eq_none_iff.mpr hnever] at hdrawn
    cases hdrawn

theorem orderly_start (hruns : start.runs = []) : Orderly [] start where
  returned place entry hentry := by
    rw [hruns] at hentry
    cases hentry
  sorted := .nil

/-- For every engine whose source goes through a list of values, and every order in which runs are started and go on, at once or after one another, with sources of their own or without: each draw is taken by one run that needs it, and is the next value of its source. What a run returns is settled by its spec and its draw, and every run that is not given up can return. Where runs follow one another, the draws are theirs in the order of their starts. The rates that decide alone decide as any draw between zero and one would. -/
theorem outcomes_follow_draws (values : List Binary64) (hvalues : values ≠ []) (limits : Limits) (sources : Nat → Draws)
    (directory : Directory) (events : List EngineEvent) :
    let start : Engine := { limits, draws := .cycle values, sources, directory }
    (∃ turns, Accounts values start events turns (start.applyAll events)) ∧
      ∀ (rate : Binary64) (draws : Draws), Binary64.zero ≤ draws.next.1 ∧ draws.next.1 < Binary64.one →
        (fails rate draws).1 = decide (draws.next.1 < rate) := by
  intro start
  refine ⟨?_, fun rate draws hdraw => fails_eq_decide rate hdraw⟩
  have hstart : History start [] start := history_start rfl
  obtain ⟨turns, h, horderly⟩ := hstart.applyAll events
  refine ⟨turns, ?_⟩
  exact {
    started := by rw [runs_applyAll]; rfl
    once := h.nodup
    asked := fun turn hturn => h.asked hturn
    taken := h.sources_eq
    next := h.value_eq
    cycle := by
      intro k turn hturn hsource hcount
      have hvalue := h.value_eq k turn hturn
      rw [hsource, show (start.source none).taken = 0 from rfl, Nat.zero_add] at hvalue
      rw [hvalue]
      exact Draws.getElem?_cycle hvalues hcount
    returns := fun place entry outcome hentry houtcome => h.limits_eq ▸ (h.stands place entry hentry).settles houtcome
    canReturn := fun place entry hentry => h.canReturn hentry
    inOrder := fun hserially hreturned => h.inOrder (horderly (orderly_start rfl) hserially) hreturned }

/-- Of two runs with the same rate, the second one comes first to its draw and takes the lower value. -/
theorem outcomes_follow_draws_overtaking :
    let half : Binary64 := ⟨false, 0x3fe0000000000000, by decide⟩
    let values : List Binary64 := [⟨false, 0x3fd0000000000000, by decide⟩, ⟨false, 0x3fe8000000000000, by decide⟩]
    let spec : Spec := { mode := .mem, duration := ⟨1000000⟩, allocMb := 1, errorRate := half }
    let start : Engine := { limits := .unbounded, draws := .cycle values, sources := fun _ => .always Binary64.zero, directory := some [] }
    let events : List EngineEvent :=
      [.start spec none false, .start spec none true, .run 1 .resume, .run 0 .resume, .run 0 .launch, .run 0 .deadline]
    values ≠ [] ∧ (∃ turns, Accounts values start events turns (start.applyAll events)) ∧
      (start.applyAll events).runs.map (·.run.outcome?) = [none, some (.error .injected)] ∧ (start.applyAll events).draws.taken = 2 := by
  intro half values spec start events
  exact ⟨List.cons_ne_nil _ _, (outcomes_follow_draws values (List.cons_ne_nil _ _) .unbounded _ (some []) events).1, by decide +kernel, by
    decide +kernel⟩

end Engine

end Load

end LoadGenerator
