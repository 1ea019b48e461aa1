import Telescope.Event.Outcome

/-!
# What is gathered during an event

The first hit of every tracker plane, and the sum of the energies left in the calorimeter. A new
event starts from nothing.
-/

namespace Telescope

/-- The state of the event under way. -/
structure Accumulator where
  /-- the planes' hits along the beam -/
  hits : Vector Hit 4
  /-- the calorimeter sum in MeV -/
  caloEdep : Float

namespace Accumulator

/-- Nothing seen yet; every event starts here. -/
def empty : Accumulator := ⟨Vector.replicate 4 Hit.none, 0.0⟩

instance : Inhabited Accumulator := ⟨empty⟩

/-- A crossing of a plane, kept only if the plane has none yet. Planes that do not exist are
ignored. -/
def addHit (acc : Accumulator) (plane : Nat) (position momentum : Vector3) : Accumulator :=
  match acc.hits[plane]? with
  | none => acc
  | some hit =>
    if hit.recorded then acc
    else { acc with hits := acc.hits.setIfInBounds plane ⟨position, momentum, true⟩ }

/-- An energy left in the calorimeter. -/
def addEnergy (acc : Accumulator) (edep : Float) : Accumulator :=
  { acc with caloEdep := acc.caloEdep + edep }

/-- What a plane saw; `none` for a plane that does not exist. -/
def hit? (acc : Accumulator) (plane : Nat) : Option Hit := acc.hits[plane]?

/-- How the event ends. -/
def outcome (acc : Accumulator) : Outcome := reconstruct acc.hits acc.caloEdep

/-- A plane keeps its first hit. -/
theorem addHit_of_recorded {acc : Accumulator} {plane : Nat} {hit : Hit}
    (h : acc.hits[plane]? = some hit) (hr : hit.recorded = true) (position momentum : Vector3) :
    acc.addHit plane position momentum = acc := by
  simp [addHit, h, hr]

end Accumulator

end Telescope
