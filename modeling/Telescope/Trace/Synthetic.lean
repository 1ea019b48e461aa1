import Telescope.Gun
import Telescope.Random.Generator
import Telescope.Trace.Event

/-!
# Synthetic traces

Without a recorded trace one can be made up, to exercise the pipeline. The track is straight up to
the middle of the target, takes one random kink there, and is straight again behind it, with a fixed
loss of momentum. It leaves a step in each tracker plane that it crosses, if the plane is efficient,
and steps in five slices of the calorimeter. No physics is sampled.

All events of a trace come from one stream of random numbers: first the two kinks, then one decision
for each plane.
-/

namespace Telescope

/-- Why no trace can be made up. -/
inductive SyntheticError
  /-- the kinks do not come from a finite interval -/
  | unboundedKink
  /-- the efficiency is not a number -/
  | undefinedEfficiency
deriving DecidableEq, Repr

/-- How a synthetic trace is made. -/
structure Synthetic where
  /-- the number of events -/
  events : UInt64
  /-- the seed of the random numbers -/
  seed : UInt64
  /-- the greatest kink in each transverse plane, in mrad -/
  kink : Float
  /-- the momentum lost in the target, in MeV -/
  momentumLoss : Float
  /-- the probability that a plane sees a crossing -/
  efficiency : Float
  /-- the part of the momentum behind the target that is left in the calorimeter -/
  caloFraction : Float

namespace Synthetic

/-- A hundred events with kinks of up to 2 mrad, a loss of 10 MeV, and perfect planes. -/
def default : Synthetic where
  events := 100
  seed := 0
  kink := 2.0
  momentumLoss := 10.0
  efficiency := 1.0
  caloFraction := 0.9

instance : Inhabited Synthetic := ⟨default⟩

/-! ## The track -/

/-- A straight line through a point, with a direction. -/
structure Line where
  /-- a point of the line -/
  origin : Vector3
  /-- its direction -/
  direction : Vector3

/-- Where a line crosses the plane at `z`. -/
def Line.crossing (line : Line) (z : Float) : Vector3 :=
  line.origin + line.direction.scale ((z - line.origin.z) / line.direction.z)

/-- The two halves of a track, with the momenta on them. -/
structure Track where
  /-- the line before the target -/
  incoming : Line
  /-- the line behind the target -/
  outgoing : Line
  /-- where the target's middle lies -/
  targetZ : Float
  /-- the momentum before the target -/
  momentumIn : Float
  /-- the momentum behind the target -/
  momentumOut : Float

/-- The half of the track that crosses the plane at `z`, and the momentum on it. -/
def Track.at (track : Track) (z : Float) : Line × Float :=
  if z < track.targetZ then (track.incoming, track.momentumIn)
  else (track.outgoing, track.momentumOut)

/-- The track of a primary particle that takes the given kinks in the target. -/
def trackOf (config : Synthetic) (primary : Vertex) (targetZ kinkX kinkY : Float) : Track :=
  let momentumIn := primary.momentum.norm
  let rest := momentumIn - config.momentumLoss
  let incoming : Line := ⟨primary.position, primary.momentum.divide momentumIn⟩
  let d := incoming.direction
  let outgoing : Vector3 := ⟨d.x / d.z + kinkX.tan, d.y / d.z + kinkY.tan, 1.0⟩
  { incoming := incoming
    outgoing := ⟨incoming.crossing targetZ, outgoing.normalize⟩
    targetZ := targetZ
    momentumIn := momentumIn
    momentumOut := if rest > 0.0 then rest else 0.0 }

/-! ## The steps -/

/-- The step of a track at `z` in a volume, if the track crosses the volume there. -/
def stepIn (volume : Volume) (line : Line) (momentum z edep : Float) : Option TraceStep :=
  let position := line.crossing z
  if volume.contains position then
    some ⟨some volume.name, position, line.direction.scale momentum, edep⟩
  else none

/-- A step in a volume is in it, and names it. -/
theorem contains_of_stepIn {volume : Volume} {line : Line} {momentum z edep : Float}
    {step : TraceStep} (h : stepIn volume line momentum z edep = some step) :
    volume.contains step.position = true ∧ step.volume = some volume.name := by
  unfold stepIn at h
  dsimp only at h
  split at h
  · next hc =>
    obtain rfl := Option.some.inj h
    exact ⟨hc, rfl⟩
  · exact nomatch h

/-- The step in a tracker plane. -/
def planeStep (track : Track) (plane : Volume) : Option TraceStep :=
  let (line, momentum) := track.at plane.center.z
  stepIn plane line momentum plane.center.z 0.0

/-- The number of slices of the calorimeter. -/
def slices : Nat := 5

/-- The depth in the calorimeter at which the middle of a slice lies. -/
def sliceDepth (calorimeter : Volume) (slice : Nat) : Float :=
  calorimeter.halfExtent.z * 2.0 * (slice.toFloat + 0.5) / slices.toFloat

/-- The steps in the calorimeter: every slice takes the same share of the energy. -/
def caloSteps (config : Synthetic) (track : Track) (calorimeter : Volume) : List TraceStep :=
  let front := calorimeter.center.z - calorimeter.halfExtent.z
  let share := track.momentumOut * config.caloFraction / slices.toFloat
  (List.range slices).filterMap fun slice =>
    stepIn calorimeter track.outgoing track.momentumOut (front + sliceDepth calorimeter slice) share

/-! ## The events -/

/-- A kink, in radians. -/
def kinkAngle (config : Synthetic) (g : Generator) : Except SyntheticError (Float × Generator) :=
  let half := config.kink * 1.0e-3
  if half > 0.0 then
    match g.uniform? half with
    | some drawn => .ok drawn
    | none => .error .unboundedKink
  else .ok (0.0, g)

/-- The steps in the tracker planes; a plane that is not efficient is passed over. -/
def planeSteps (config : Synthetic) (track : Track) :
    List Volume → Generator → Except SyntheticError (List TraceStep × Generator)
  | [], g => .ok ([], g)
  | plane :: rest, g =>
    match g.chance? (clamp config.efficiency 0.0 1.0) with
    | none => .error .undefinedEfficiency
    | some (seen, g) => do
      let (steps, g) ← planeSteps config track rest g
      if seen then .ok ((planeStep track plane).toList ++ steps, g) else .ok (steps, g)

/-- What the events of a trace have in common. -/
structure Scene where
  /-- the tracker planes along the beam -/
  planes : List Volume
  /-- the calorimeter -/
  calorimeter : Volume
  /-- where the target's middle lies -/
  targetZ : Float
  /-- the primary particle -/
  primary : Vertex

/-- The scene of a detector and a gun; `none` for a detector without a calorimeter. -/
def sceneOf (layout : Detector.Layout) (gun : Gun) : Option Scene :=
  (layout.volume? layout.sensitive.calorimeter).map fun calorimeter =>
    { planes := layout.sensitive.trackers.toList.filterMap layout.volume?
      calorimeter := calorimeter
      targetZ := ((layout.volume? layout.sensitive.target).map (·.center.z)).getD 0.0
      primary := gun.fire 0 }

/-- One event. -/
def event (config : Synthetic) (scene : Scene) (number : UInt64) (g : Generator) :
    Except SyntheticError (TraceEvent × Generator) := do
  let (kinkX, g) ← config.kinkAngle g
  let (kinkY, g) ← config.kinkAngle g
  let track := config.trackOf scene.primary scene.targetZ kinkX kinkY
  let (steps, g) ← config.planeSteps track scene.planes g
  return (⟨number, steps ++ config.caloSteps track scene.calorimeter⟩, g)

/-- So many events, numbered from `first` on. -/
def eventsFrom (config : Synthetic) (scene : Scene) (first : Nat) :
    Nat → Generator → Except SyntheticError Trace
  | 0, _ => .ok []
  | count + 1, g => do
    let (e, g) ← config.event scene (UInt64.ofNat first) g
    return e :: (← eventsFrom config scene (first + 1) count g)

/-- The synthetic trace. It is empty unless the gun fires along the beam. -/
def trace (config : Synthetic) (layout : Detector.Layout) (gun : Gun) :
    Except SyntheticError Trace :=
  match sceneOf layout gun with
  | none => .ok []
  | some scene =>
    if scene.primary.momentum.z <= 0.0 then .ok []
    else config.eventsFrom scene 0 config.events.toNat (Generator.ofSeed config.seed)

end Synthetic

end Telescope
