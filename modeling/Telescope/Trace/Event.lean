import Telescope.Event.Step
import Telescope.Text.Quoted

/-!
# Traces

A trace is a recorded run: the steps of every event, as a transport program would hand them over. A
step of a trace may name its volume; one that does not is placed by its position. Finding the
volumes of an event turns its steps into those that workers take.
-/

namespace Telescope

/-- A step of a trace. -/
structure TraceStep where
  /-- the name of the volume, if it is given -/
  volume : Option String
  /-- where the step starts, in mm -/
  position : Vector3
  /-- the momentum there, in MeV -/
  momentum : Vector3
  /-- the energy left in the volume, in MeV -/
  edep : Float

/-- An event of a trace. -/
structure TraceEvent where
  /-- the number of the event -/
  event : UInt64
  /-- its steps in order -/
  steps : List TraceStep

/-- A trace: its events in order. -/
abbrev Trace := List TraceEvent

/-- Why no volume was found for a step. -/
inductive PlacementError
  /-- no volume has this name -/
  | unknownVolume (name : String)
  /-- there is no name, and no volume contains this point -/
  | outsideWorld (position : Vector3)

/-- The message of an error. -/
def PlacementError.message : PlacementError → String
  | .unknownVolume name => "unknown volume " ++ Text.quote name
  | .outsideWorld position => "step at " ++ position.inspect ++ " lies outside the world"

namespace TraceStep

/-- The volume of a step. -/
def volumeIn (layout : Detector.Layout) (s : TraceStep) : Except PlacementError VolumeId :=
  match s.volume with
  | some name =>
    match layout.volumeNamed? name with
    | some v => .ok v.id
    | none => .error (.unknownVolume name)
  | none =>
    match layout.locate s.position with
    | some id => .ok id
    | none => .error (.outsideWorld s.position)

/-- The step with its volume. -/
def place (layout : Detector.Layout) (s : TraceStep) : Except PlacementError Step :=
  (s.volumeIn layout).map fun volume => ⟨volume, s.position, s.momentum, s.edep⟩

end TraceStep

namespace TraceEvent

/-- The steps of an event with their volumes; the first step without one is the error. -/
def place (layout : Detector.Layout) (e : TraceEvent) : Except PlacementError (List Step) :=
  e.steps.mapM (TraceStep.place layout)

/-- What is said about an event some step of which has no volume. -/
def placementContext (e : TraceEvent) : String :=
  "resolving steps of event " ++ toString e.event.toNat

end TraceEvent

end Telescope
