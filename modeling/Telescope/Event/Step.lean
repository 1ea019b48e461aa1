import Telescope.Detector.Layout
import Telescope.Event.Accumulator

/-!
# Steps

A particle's way through the detector comes as a list of steps, each in one volume. A step in a
tracker plane is a hit, a step in the calorimeter leaves energy, and other steps do not matter.
-/

namespace Telescope

/-- One step, with the values at its start. -/
structure Step where
  /-- the volume it is in -/
  volume : VolumeId
  /-- where it starts, in mm -/
  position : Vector3
  /-- the momentum there, in MeV -/
  momentum : Vector3
  /-- the energy left in the volume, in MeV -/
  edep : Float

/-- Where a step goes. -/
inductive Route
  /-- to a tracker plane -/
  | tracker (plane : Fin 4)
  /-- to the calorimeter -/
  | calorimeter
  /-- nowhere -/
  | ignored
deriving DecidableEq, Repr

namespace Detector.Sensitive

/-- The first tracker plane with this volume. -/
def plane? (sensitive : Sensitive) (volume : VolumeId) : Option (Fin 4) :=
  (List.finRange 4).find? fun plane => sensitive.trackers[plane] == volume

/-- Where a step in this volume goes; tracker planes come before the calorimeter. -/
def route (sensitive : Sensitive) (volume : VolumeId) : Route :=
  match sensitive.plane? volume with
  | some plane => .tracker plane
  | none => if volume == sensitive.calorimeter then .calorimeter else .ignored

end Detector.Sensitive

namespace Accumulator

/-- What a step adds to the event. Every step in a tracker plane is reported, also one that comes
after the plane's first hit. -/
def addStep (acc : Accumulator) (sensitive : Detector.Sensitive) (step : Step) :
    Accumulator × List Log.Record :=
  match sensitive.route step.volume with
  | .tracker plane =>
    (acc.addHit plane step.position step.momentum,
      [Log.debug ("tracker " ++ toString plane.val ++ " step at [" ++ step.position.inspect ++ "]")])
  | .calorimeter => (acc.addEnergy step.edep, [])
  | .ignored => (acc, [])

end Accumulator

end Telescope
