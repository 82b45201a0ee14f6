import LoadGenerator.Proofs.Load.LifeCycle

/-!
# The draw of a run

A run draws once if its spec is accepted and its rate does not decide alone, and never otherwise. It draws when its latency is over, for whatever reason, and not at its end: what it returns is settled by its spec and this draw, whatever happens to its parent, its token and its workers.
-/

namespace LoadGenerator

namespace Binary64

variable {x y : Binary64}

theorem lt_of_not_le (h : y ≤ x ∨ x ≤ y) (hnot : ¬ y ≤ x) : x < y := by
  have hle := h.resolve_left hnot
  exact ⟨hle.1, hle.2.1, Int.not_le.mp fun hrank => hnot ⟨hle.2.1, hle.1, hrank⟩⟩

theorem not_le_of_lt (h : x < y) : ¬ y ≤ x := fun hle => absurd h.2.2 (Int.not_lt.mpr hle.2.2)

theorem eq_one (hlow : one ≤ x) (hhigh : x ≤ one) : x = one := by
  have hrank : x.rank = 0x3ff0000000000000 := Int.le_antisymm hhigh.2.2 hlow.2.2
  obtain ⟨negative, magnitude, hlt⟩ := x
  cases negative with
  | true =>
    simp only [rank, if_true] at hrank
    omega
  | false =>
    simp only [rank, Bool.false_eq_true, if_false] at hrank
    obtain rfl : magnitude = 0x3ff0000000000000 := Int.ofNat.inj hrank
    rfl

end Binary64

namespace Load

/-! ## One draw -/

/-- An accepted spec whose rate does not decide alone. -/
def Spec.NeedsDraw (spec : Spec) (limits : Limits) : Prop :=
  spec.validate limits = .ok () ∧ Binary64.zero < spec.errorRate ∧ spec.errorRate < Binary64.one

/-- Whether an accepted run of this rate fails that drew this value, or drew nothing. -/
inductive Decides (rate : Binary64) : Option Binary64 → Bool → Prop where
  | never (h : rate ≤ Binary64.zero) : Decides rate none false
  | always (hpositive : ¬ rate ≤ Binary64.zero) (h : Binary64.one ≤ rate) : Decides rate none true
  | draws (value : Binary64) (hpositive : ¬ rate ≤ Binary64.zero) (h : ¬ Binary64.one ≤ rate) :
      Decides rate (some value) (decide (value < rate))

/-- The rate alone decides, or the next draw does. -/
theorem decides_fails (rate : Binary64) (draws : Draws) :
    (Decides rate none (fails rate draws).1 ∧ (fails rate draws).2 = draws) ∨
      Decides rate (some draws.next.1) (fails rate draws).1 ∧ (fails rate draws).2 = draws.next.2 := by
  unfold fails
  split_ifs with hnever halways
  · exact .inl ⟨.never hnever, rfl⟩
  · exact .inl ⟨.always hnever halways, rfl⟩
  · exact .inr ⟨.draws _ hnever halways, rfl⟩

instance (spec : Spec) (limits : Limits) : Decidable (spec.NeedsDraw limits) := inferInstanceAs (Decidable (_ ∧ _ ∧ _))

/-- Where a run stands that drew this value, or has drawn nothing. -/
inductive Stands (limits : Limits) (drawn : Option Binary64) (run : Run) : Prop where
  | refused (violation : Violation) (hvalid : run.spec.validate limits = .error violation)
      (hstage : run.stage = .returned (.error (.invalid violation))) (hdrawn : drawn = none)
  | waiting (hvalid : run.spec.validate limits = .ok ()) (hstage : run.stage = .waiting) (htoken : run.token.isSome = true)
      (hdrawn : drawn = none)
  | injected (hvalid : run.spec.validate limits = .ok ()) (hstage : run.stage = .returned (.error .injected))
      (hdecides : Decides run.spec.errorRate drawn true)
  | working (pending : List Worker) (hvalid : run.spec.validate limits = .ok ()) (hstage : run.stage = .working pending)
      (htoken : run.token.isSome = true) (hdecides : Decides run.spec.errorRate drawn false)
  | done (hvalid : run.spec.validate limits = .ok ()) (hstage : run.stage = .returned (.ok ()))
      (hdecides : Decides run.spec.errorRate drawn false)
  | dropped (hvalid : run.spec.validate limits = .ok ()) (hstage : run.stage = .dropped)
      (hdrawn : drawn = none ∨ Decides run.spec.errorRate drawn false)

variable {limits : Limits} {drawn : Option Binary64} {run next : Run} {draws draws' : Draws} {event : RunEvent}

theorem stands_start (limits : Limits) (spec : Spec) (own : Option Draws) (parentCancelled : Bool) (directory : Directory) :
    Stands limits none (Run.start limits spec own parentCancelled directory) := by
  unfold Run.start
  cases hvalid : spec.validate limits with
  | error violation => exact .refused violation hvalid rfl rfl
  | ok _ => exact .waiting hvalid rfl rfl rfl

theorem Stands.same (h : Stands limits drawn run) (hspec : next.spec = run.spec) (hstage : next.stage = run.stage)
    (htoken : next.token.isSome = run.token.isSome) : Stands limits drawn next := by
  cases h with
  | refused violation hvalid hreturned hdrawn => exact .refused violation (hspec ▸ hvalid) (hstage.trans hreturned) hdrawn
  | waiting hvalid hwaiting hsome hdrawn => exact .waiting (hspec ▸ hvalid) (hstage.trans hwaiting) (htoken.trans hsome) hdrawn
  | injected hvalid hreturned hdecides => exact .injected (hspec ▸ hvalid) (hstage.trans hreturned) (hspec ▸ hdecides)
  | working pending hvalid hworking hsome hdecides =>
    exact .working pending (hspec ▸ hvalid) (hstage.trans hworking) (htoken.trans hsome) (hspec ▸ hdecides)
  | done hvalid hreturned hdecides => exact .done (hspec ▸ hvalid) (hstage.trans hreturned) (hspec ▸ hdecides)
  | dropped hvalid hdropped hdrawn => exact .dropped (hspec ▸ hvalid) (hstage.trans hdropped) (hspec ▸ hdrawn)

theorem Stands.cancel (h : Stands limits drawn run) : Stands limits drawn run.cancel := h.same rfl rfl (by simp [Run.cancel])

/-- The draws of a run and the shared ones, after the run has taken its next. -/
def Run.afterDraw (run : Run) (draws : Draws) : Option Draws × Draws :=
  match run.own with
  | some source => (some source.next.2, draws)
  | none => (none, draws.next.2)

/-- What an event of a run does to its draws: nothing, or the run takes its only one. -/
inductive Takes (limits : Limits) (drawn : Option Binary64) (run : Run) (draws : Draws) (result : Run × Draws) : Prop where
  | nothing (hown : result.1.own = run.own) (hdraws : result.2 = draws) (hstands : Stands limits drawn result.1)
  | draw (hwaiting : run.stage = .waiting) (hfirst : drawn = none)
      (hafter : (result.1.own, result.2) = run.afterDraw draws)
      (hstands : Stands limits (some (run.own.getD draws).next.1) result.1)

theorem Spec.needsDraw_of_decides {spec : Spec} {value : Binary64} {verdict : Bool} (hvalid : spec.validate limits = .ok ())
    (h : Decides spec.errorRate (some value) verdict) : spec.NeedsDraw limits := by
  obtain ⟨hlow, hhigh⟩ := (Spec.validate_eq_ok_iff.mp hvalid).errorRate
  cases h with
  | draws _ hpositive hless => exact ⟨hvalid, Binary64.lt_of_not_le (.inr hlow) hpositive, Binary64.lt_of_not_le (.inr hhigh) hless⟩

theorem Stands.needsDraw {value : Binary64} (h : Stands limits (some value) run) : run.spec.NeedsDraw limits := by
  cases h with
  | refused _ _ _ hdrawn => cases hdrawn
  | waiting _ _ _ hdrawn => cases hdrawn
  | injected hvalid _ hdecides => exact Spec.needsDraw_of_decides hvalid hdecides
  | working _ hvalid _ _ hdecides => exact Spec.needsDraw_of_decides hvalid hdecides
  | done hvalid _ hdecides => exact Spec.needsDraw_of_decides hvalid hdecides
  | dropped hvalid _ hdrawn =>
    obtain hdrawn | hdecides := hdrawn
    · cases hdrawn
    · exact Spec.needsDraw_of_decides hvalid hdecides

/-- The decision about the injected failure, by its parts. -/
theorem Run.decideFault_parts (run : Run) (draws : Draws) :
    let verdict := fails run.spec.errorRate (run.own.getD draws)
    (run.decideFault draws).1.spec = run.spec ∧
      (run.decideFault draws).1.stage = (if verdict.1 = true then .returned (.error .injected) else .working run.spec.workers) ∧
      (run.decideFault draws).1.token.isSome = run.token.isSome ∧
      (run.decideFault draws).1.own = run.own.map (fun _ => verdict.2) ∧
      (run.decideFault draws).2 = if run.own.isSome = true then draws else verdict.2 := by
  unfold Run.decideFault
  generalize fails run.spec.errorRate (run.own.getD draws) = verdict
  obtain ⟨failed, rest⟩ := verdict
  cases run.own <;> cases failed <;> refine ⟨rfl, rfl, ?_, rfl, rfl⟩ <;> simp [Run.finish, Run.cancel]

theorem takes_decideFault (hvalid : run.spec.validate limits = .ok ()) (hwaiting : run.stage = .waiting)
    (htoken : run.token.isSome = true) (draws : Draws) (hfirst : drawn = none) :
    Takes limits drawn run draws (run.decideFault draws) := by
  subst hfirst
  obtain ⟨hspec, hstage, hsome, hown, hdraws⟩ := run.decideFault_parts draws
  have hstands {drawn : Option Binary64} (hdecides : Decides run.spec.errorRate drawn (fails run.spec.errorRate (run.own.getD draws)).1) :
      Stands limits drawn (run.decideFault draws).1 := by
    cases hfails : (fails run.spec.errorRate (run.own.getD draws)).1 with
    | true =>
      rw [hfails] at hdecides hstage
      exact .injected (hspec ▸ hvalid) hstage (hspec ▸ hdecides)
    | false =>
      rw [hfails] at hdecides hstage
      exact .working _ (hspec ▸ hvalid) hstage (hsome.trans htoken) (hspec ▸ hdecides)
  rcases decides_fails run.spec.errorRate (run.own.getD draws) with ⟨hdecides, hrest⟩ | ⟨hdecides, hrest⟩
  · rw [hrest] at hown hdraws
    refine .nothing ?_ ?_ (hstands hdecides)
    · rw [hown]
      cases run.own <;> rfl
    · rw [hdraws]
      cases run.own <;> rfl
  · rw [hrest] at hown hdraws
    refine .draw hwaiting rfl ?_ (hstands hdecides)
    rw [hown, hdraws, Run.afterDraw]
    cases run.own <;> rfl

/-- An event of a run makes it draw at most once, and only while it waits. -/
theorem Stands.takes (h : Stands limits drawn run) (draws : Draws) (event : RunEvent) :
    Takes limits drawn run draws (run.apply draws event) := by
  have happlied := Run.applied run draws event
  generalize run.apply draws event = result at happlied ⊢
  cases happlied with
  | parentCancels => exact .nothing rfl rfl (h.cancel.same rfl rfl rfl)
  | deadline => exact .nothing rfl rfl h.cancel
  | stays => exact .nothing rfl rfl h
  | moves place move =>
    obtain ⟨workers, directory, heq⟩ := Run.moveWorker_eq run place move
    rw [heq]
    exact .nothing rfl rfl (h.same rfl rfl rfl)
  | joins place =>
    obtain ⟨workers, heq⟩ := Run.joinWorker_eq run place
    rw [heq]
    exact .nothing rfl rfl (h.same rfl rfl rfl)
  | decides _ _ hwaiting =>
    cases h with
    | waiting hvalid _ htoken hdrawn => exact takes_decideFault hvalid hwaiting htoken draws hdrawn
    | _ => simp_all
  | launches worker pending hworking =>
    cases h with
    | working _ hvalid _ htoken hdecides => exact .nothing rfl rfl (.working pending hvalid rfl htoken hdecides)
    | _ => simp_all
  | concludes hworking =>
    cases h with
    | working _ hvalid _ _ hdecides => exact .nothing rfl rfl (.done hvalid rfl hdecides)
    | _ => simp_all
  | drops hleft =>
    cases h with
    | waiting hvalid _ _ hdrawn => exact .nothing rfl rfl (.dropped hvalid rfl (.inl hdrawn))
    | working _ hvalid _ _ hdecides => exact .nothing rfl rfl (.dropped hvalid rfl (.inr hdecides))
    | _ => simp_all

namespace Run

theorem spec_apply (run : Run) (draws : Draws) (event : RunEvent) : (run.apply draws event).1.spec = run.spec := by
  have happlied := applied run draws event
  generalize run.apply draws event = result at happlied ⊢
  cases happlied with
  | decides => exact (run.decideFault_parts draws).1
  | moves place move =>
    obtain ⟨workers, directory, heq⟩ := moveWorker_eq run place move
    rw [heq]
  | joins place =>
    obtain ⟨workers, heq⟩ := joinWorker_eq run place
    rw [heq]
  | parentCancels | deadline | launches | concludes | drops | stays => rfl

/-- A run keeps to its own source, or to the shared one. -/
theorem own_apply (run : Run) (draws : Draws) (event : RunEvent) : (run.apply draws event).1.own.isSome = run.own.isSome := by
  have happlied := applied run draws event
  generalize run.apply draws event = result at happlied ⊢
  cases happlied with
  | decides =>
    obtain ⟨-, -, -, hown, -⟩ := run.decideFault_parts draws
    rw [hown, Option.isSome_map]
  | moves place move =>
    obtain ⟨workers, directory, heq⟩ := moveWorker_eq run place move
    rw [heq]
  | joins place =>
    obtain ⟨workers, heq⟩ := joinWorker_eq run place
    rw [heq]
  | parentCancels | deadline | launches | concludes | drops | stays => rfl

theorem outcome_apply (h : run.outcome?.isSome = true) (draws : Draws) (event : RunEvent) :
    (run.apply draws event).1.outcome? = run.outcome? := by
  obtain ⟨outcome, houtcome⟩ := Option.isSome_iff_exists.mp h
  have hstage := stage_of_outcome houtcome
  have happlied := applied run draws event
  generalize run.apply draws event = result at happlied ⊢
  cases happlied with
  | moves place move =>
    obtain ⟨workers, directory, heq⟩ := moveWorker_eq run place move
    rw [heq, outcome?, outcome?]
  | parentCancels | deadline | stays => rfl
  | _ => simp_all

end Run

/-! ## What a run returns -/

/-- What a run returns that drew this value, or nothing. -/
structure Settles (limits : Limits) (spec : Spec) (drawn : Option Binary64) (outcome : Outcome) : Prop where
  invalid : ∀ violation, outcome = .error (.invalid violation) ↔ spec.validate limits = .error violation
  injected : outcome = .error .injected ↔ spec.validate limits = .ok () ∧ (spec.errorRate = Binary64.one ∨
    Binary64.zero < spec.errorRate ∧ spec.errorRate < Binary64.one ∧ ∃ value, drawn = some value ∧ value < spec.errorRate)
  works : outcome = .ok () ↔ spec.validate limits = .ok () ∧ ¬ (spec.errorRate = Binary64.one ∨
    Binary64.zero < spec.errorRate ∧ spec.errorRate < Binary64.one ∧ ∃ value, drawn = some value ∧ value < spec.errorRate)
  draws : drawn.isSome = true ↔ spec.NeedsDraw limits

theorem Decides.iff {spec : Spec} {verdict : Bool} (hvalid : spec.validate limits = .ok ()) (h : Decides spec.errorRate drawn verdict) :
    (verdict = true ↔ spec.errorRate = Binary64.one ∨
        Binary64.zero < spec.errorRate ∧ spec.errorRate < Binary64.one ∧ ∃ value, drawn = some value ∧ value < spec.errorRate) ∧
      (drawn.isSome = true ↔ spec.NeedsDraw limits) := by
  cases h with
  | never hnever =>
    have hpositive : ¬ Binary64.zero < spec.errorRate := fun hless => Binary64.not_le_of_lt hless hnever
    refine ⟨iff_of_false Bool.false_ne_true ?_, iff_of_false Bool.false_ne_true fun hneeds => hpositive hneeds.2.1⟩
    rintro (hone | ⟨hless, -⟩)
    · rw [hone] at hnever
      exact absurd hnever (by decide)
    · exact hpositive hless
  | always _ halways =>
    have hone := Binary64.eq_one halways (Spec.validate_eq_ok_iff.mp hvalid).errorRate.2
    exact ⟨iff_of_true rfl (.inl hone), iff_of_false Bool.false_ne_true fun hneeds => Binary64.not_le_of_lt hneeds.2.2 halways⟩
  | draws value hpositive hless =>
    have hneeds := Spec.needsDraw_of_decides hvalid (.draws value hpositive hless)
    refine ⟨?_, iff_of_true rfl hneeds⟩
    rw [decide_eq_true_iff]
    refine ⟨fun hbelow => .inr ⟨hneeds.2.1, hneeds.2.2, value, rfl, hbelow⟩, ?_⟩
    rintro (hone | ⟨-, -, _, hsame, hbelow⟩)
    · exact absurd (by rw [hone]; decide) hless
    · exact Option.some.inj hsame ▸ hbelow

theorem Stands.settles {outcome : Outcome} (h : Stands limits drawn run) (hreturned : run.outcome? = some outcome) :
    Settles limits run.spec drawn outcome := by
  have hstage := Run.stage_of_outcome hreturned
  cases h with
  | refused violation hvalid hrefused hdrawn =>
    subst hdrawn
    obtain rfl := RunStage.returned.inj (hrefused.symm.trans hstage)
    exact {
      invalid := fun other => by simp [hvalid]
      injected := by simp [hvalid]
      works := by simp [hvalid]
      draws := by simp [Spec.NeedsDraw, hvalid] }
  | injected hvalid hinjected hdecides =>
    obtain rfl := RunStage.returned.inj (hinjected.symm.trans hstage)
    obtain ⟨hverdict, hneeds⟩ := hdecides.iff hvalid
    exact {
      invalid := fun other => by simp [hvalid]
      injected := iff_of_true rfl ⟨hvalid, hverdict.mp rfl⟩
      works := iff_of_false (by simp) fun hworks => hworks.2 (hverdict.mp rfl)
      draws := hneeds }
  | done hvalid hdone hdecides =>
    obtain rfl := RunStage.returned.inj (hdone.symm.trans hstage)
    obtain ⟨hverdict, hneeds⟩ := hdecides.iff hvalid
    have hdeclined := mt hverdict.mpr Bool.false_ne_true
    exact {
      invalid := fun other => by simp [hvalid]
      injected := iff_of_false (by simp) fun hinjected => hdeclined hinjected.2
      works := iff_of_true rfl ⟨hvalid, hdeclined⟩
      draws := hneeds }
  | waiting _ hother _ _ => cases hother.symm.trans hstage
  | working _ _ hother _ _ => cases hother.symm.trans hstage
  | dropped _ hother _ => cases hother.symm.trans hstage

end Load

end LoadGenerator
