import Telescope.Particle
import Telescope.Vector

/-!
# The particle gun

Every event starts with one primary particle of fixed kinematics: the gun's species and kinetic
energy, leaving from the gun's position along its direction.
-/

namespace Telescope

/-- A source of single particles. -/
structure Gun where
  /-- the species -/
  particle : Particle
  /-- the kinetic energy in MeV -/
  kineticEnergy : Float
  /-- where the particles start, in mm -/
  position : Vector3
  /-- where they head; its length does not matter -/
  direction : Vector3
deriving Inhabited

/-- The primary particle of one event. -/
structure Vertex where
  /-- the event's number -/
  event : UInt64
  /-- the species -/
  particle : Particle
  /-- where the particle starts, in mm -/
  position : Vector3
  /-- its momentum in MeV -/
  momentum : Vector3

namespace Gun

/-- Electrons of 3 GeV along the beam axis, from 80 cm before the target. -/
def default : Gun where
  particle := .electron
  kineticEnergy := 3.0 * Unit.gev
  position := ⟨0.0, 0.0, -80.0 * Unit.cm⟩
  direction := ⟨0.0, 0.0, 1.0⟩

/-- The momentum that belongs to the kinetic energy `T` of a particle of mass `m`:
`p = √(T² + 2 T m)`. -/
def momentum (gun : Gun) : Float :=
  let t := gun.kineticEnergy
  (t * t + 2.0 * t * gun.particle.mass).sqrt

/-- The primary of an event. A gun whose direction has no length fires along the beam axis. -/
def fire (gun : Gun) (event : UInt64) : Vertex where
  event := event
  particle := gun.particle
  position := gun.position
  momentum := (gun.direction.direction?.getD Vector3.beamAxis).scale gun.momentum

end Gun

end Telescope
