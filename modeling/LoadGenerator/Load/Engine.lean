import LoadGenerator.Load.Draws
import LoadGenerator.Load.Validation
import LoadGenerator.Text.Quoted

/-!
# The outcome of a run

A run is refused by validation, fails by injection, or does its work; reaching the deadline or being cancelled is the normal end of work. The outcome needs the spec, the limits and at most one draw.
-/

namespace LoadGenerator.Load

inductive RunError where
  | invalid (violation : Violation)
  | injected
  deriving DecidableEq

namespace RunError

def message : RunError → String
  | invalid violation => violation.message
  | injected => "load: injected error"

def label : RunError → String
  | invalid _ => "invalid"
  | injected => "injected"

end RunError

abbrev Outcome := Except RunError Unit

/-- The outcome of one run that draws from the given stream, and the stream after it. -/
def attempt (limits : Limits) (spec : Spec) (draws : Draws) : Outcome × Draws :=
  match spec.validate limits with
  | .error violation => (.error (.invalid violation), draws)
  | .ok () =>
    let (failed, draws) := fails spec.errorRate draws
    (if failed then .error .injected else .ok (), draws)

/-- The outcome of one run with draws of its own, which go before the shared ones. -/
def attemptWith (limits : Limits) (spec : Spec) (own : Option Draws) (shared : Draws) : Outcome × Option Draws × Draws :=
  match own with
  | some draws =>
    let (outcome, draws) := attempt limits spec draws
    (outcome, some draws, shared)
  | none =>
    let (outcome, draws) := attempt limits spec shared
    (outcome, none, draws)

/-- A description of the settings of an engine as a value. -/
def describeEngine (limits : Limits) (scratchDirectory : Option String) (ownDraws : Bool) : String :=
  let directory := match scratchDirectory with
    | none => "None"
    | some path => s!"Some({Text.quoted path})"
  s!"LoadEngine \x7b limits: {limits.description}, scratch_dir: {directory}, random: {describeSource ownDraws} \x7d"

end LoadGenerator.Load
