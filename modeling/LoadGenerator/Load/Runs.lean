import LoadGenerator.Load.Run

/-!
# Runs of one engine

An engine runs specs one after another or side by side, under the same limits and in the same scratch directory. A spec may carry a source of draws, which other specs may carry as well; a run whose spec carries none draws from the source of the engine. Whatever the order of the events, each of them belongs to one run and finds the sources and the directory as the events before it have left them.
-/

namespace LoadGenerator.Load

/-- A run of an engine, and the name of the source that its spec carries, if it carries one. -/
structure EngineRun where
  source? : Option Nat
  run : Run

structure Engine where
  limits : Limits
  /-- The source of the engine. -/
  draws : Draws
  /-- The sources that specs carry, by name. -/
  sources : Nat → Draws
  /-- The scratch directory. -/
  directory : Directory := some []
  /-- The runs in the order of their starts. -/
  runs : List EngineRun := []

inductive EngineEvent where
  /-- A run is started for a spec that carries this source; the token of its parent may be cancelled already. -/
  | start (spec : Spec) (source? : Option Nat) (parentCancelled : Bool)
  /-- Something happens to the run at this place. -/
  | run (place : Nat) (event : RunEvent)

/-- The spec that an event starts a run for, with the source that it carries. -/
def EngineEvent.started? : EngineEvent → Option (Spec × Option Nat)
  | start spec source? _ => some (spec, source?)
  | run _ _ => none

namespace Engine

/-- The source with this name, and the one of the engine where there is no name. -/
def source (engine : Engine) : Option Nat → Draws
  | none => engine.draws
  | some name => engine.sources name

def startRun (engine : Engine) (spec : Spec) (source? : Option Nat) (parentCancelled : Bool) : Engine :=
  let run := Run.start engine.limits spec (source?.map engine.sources) parentCancelled engine.directory
  { engine with runs := engine.runs ++ [⟨source?, run⟩] }

/-- A run with its source and the scratch directory as they are now. -/
def load (engine : Engine) (entry : EngineRun) : Run :=
  { entry.run with own := entry.source?.map engine.sources, directory := engine.directory }

def applyAt (engine : Engine) (place : Nat) (event : RunEvent) : Engine :=
  match engine.runs[place]? with
  | none => engine
  | some entry =>
    let (run, draws) := (engine.load entry).apply engine.draws event
    { engine with
      draws
      sources := fun name => if entry.source? = some name then run.own.getD (engine.sources name) else engine.sources name
      directory := run.directory
      runs := engine.runs.set place { entry with run } }

def apply (engine : Engine) : EngineEvent → Engine
  | .start spec source? parentCancelled => engine.startRun spec source? parentCancelled
  | .run place event => engine.applyAt place event

def applyAll (engine : Engine) (events : List EngineEvent) : Engine := events.foldl apply engine

end Engine

end LoadGenerator.Load
