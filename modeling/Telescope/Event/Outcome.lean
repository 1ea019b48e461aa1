import Telescope.Vector

/-!
# Reconstruction of an event

The first two tracker planes stand before the target and the last two behind it. The straight
segments through each pair are the directions in which the particle came and left; the momenta in
the two planes next to the target enclose its loss.

An event ends in one of three ways (`Outcome`): it is accepted with a row of quantities, it is
incomplete because a plane saw nothing, or it is degenerate because a segment has no length.
-/

namespace Telescope

/-- What one tracker plane saw. -/
structure Hit where
  /-- where the particle crossed the plane, in mm -/
  position : Vector3
  /-- its momentum there, in MeV -/
  momentum : Vector3
  /-- whether there was a crossing at all -/
  recorded : Bool

/-- A plane that has seen nothing. -/
def Hit.none : Hit := ⟨Vector3.zero, Vector3.zero, false⟩

instance : Inhabited Hit := ⟨Hit.none⟩

/-- What is reconstructed from an event, in radians, MeV and mm. -/
structure Row where
  /-- the scattering angle in space -/
  theta3d : Float
  /-- its projection on the horizontal plane -/
  thetaX : Float
  /-- its projection on the vertical plane -/
  thetaY : Float
  /-- the momentum before the target -/
  pIn : Float
  /-- the momentum behind the target -/
  pOut : Float
  /-- the momentum lost -/
  deltaP : Float
  /-- where the target was crossed, horizontally -/
  xTarget : Float
  /-- where the target was crossed, vertically -/
  yTarget : Float
  /-- the energy left in the calorimeter -/
  caloEdep : Float

/-- One of the two track segments. -/
inductive Segment
  /-- before the target -/
  | incoming
  /-- behind the target -/
  | outgoing
deriving DecidableEq, Repr

/-- The name of a segment. -/
def Segment.name : Segment → String
  | .incoming => "Incoming"
  | .outgoing => "Outgoing"

/-- How an event ends. -/
inductive Outcome
  /-- all quantities could be reconstructed -/
  | accepted (row : Row)
  /-- at least one plane saw nothing -/
  | incomplete
  /-- a track segment has no length -/
  | degenerate (segment : Segment)

namespace Outcome

/-- The row of an accepted event. -/
def row? : Outcome → Option Row
  | .accepted row => some row
  | _ => none

end Outcome

/-- The quantities of an event whose planes were all hit, given the two directions. The point where
the target was crossed is taken half way between the planes next to it. -/
def Row.ofTrack (hits : Vector Hit 4) (incoming outgoing : Vector3) (caloEdep : Float) : Row :=
  let pIn := hits[1].momentum.norm
  let pOut := hits[2].momentum.norm
  { theta3d := spaceAngle incoming outgoing
    thetaX := projectedAngle incoming.x incoming.z outgoing.x outgoing.z
    thetaY := projectedAngle incoming.y incoming.z outgoing.y outgoing.z
    pIn := pIn
    pOut := pOut
    deltaP := pIn - pOut
    xTarget := (hits[1].position.x + hits[2].position.x) / 2.0
    yTarget := (hits[1].position.y + hits[2].position.y) / 2.0
    caloEdep := caloEdep }

/-- How an event with these hits ends. -/
def reconstruct (hits : Vector Hit 4) (caloEdep : Float) : Outcome :=
  if !hits.all Hit.recorded then .incomplete
  else
    match (hits[1].position - hits[0].position).direction? with
    | none => .degenerate .incoming
    | some incoming =>
      match (hits[3].position - hits[2].position).direction? with
      | none => .degenerate .outgoing
      | some outgoing => .accepted (Row.ofTrack hits incoming outgoing caloEdep)

/-- Without a hit in every plane there is nothing to reconstruct. -/
theorem reconstruct_of_missing {hits : Vector Hit 4} (h : hits.all Hit.recorded = false)
    (caloEdep : Float) : reconstruct hits caloEdep = .incomplete := by
  simp [reconstruct, h]

end Telescope
