import Telescope.Decimal.Fixed
import Telescope.Files.Path
import Telescope.Scan.Request
import Telescope.Unit

/-!
# Points of a scan

A scan has one point for every target and every momentum, in the order of the request. A point has a
name, which its macro and the directory of its results share, and a macro that runs it.
-/

namespace Telescope.Scan

/-- One point of a scan. -/
structure Point where
  /-- the name of the target -/
  targetName : String
  /-- the name of its material in the catalog -/
  material : String
  /-- its thickness in mm -/
  thickness : Float
  /-- the momentum in GeV -/
  momentum : Float
  /-- the species -/
  particle : Particle
  /-- the number of events -/
  events : UInt64
  /-- the file of the results -/
  output : String

namespace Point

/-- The name of a point: `target_2GeV_10mm`. -/
def stemOf (targetName : String) (momentum thickness : Float) : String :=
  targetName ++ "_" ++ NumberStyle.plain.write momentum ++ "GeV_" ++ NumberStyle.plain.write thickness
    ++ "mm"

/-- The name of a point. -/
def stem (p : Point) : String := stemOf p.targetName p.momentum p.thickness

/-- The kinetic energy in MeV that belongs to the momentum. -/
def kineticEnergy (p : Point) : Float :=
  let momentum := p.momentum * Unit.gev
  let mass := p.particle.mass
  (momentum * momentum + mass * mass).sqrt - mass

/-- The lines of the macro that runs a point. -/
def macroLines (p : Point) : List String :=
  let thickness := NumberStyle.plain.write p.thickness
  let events := toString p.events.toNat
  ["# Auto-generated BeamScan macro",
    "# Material: " ++ p.targetName ++ " (" ++ p.material ++ ")",
    "# Momentum: " ++ NumberStyle.plain.write p.momentum ++ " GeV/c",
    "# Thickness: " ++ thickness ++ " mm",
    "# Events: " ++ events,
    "",
    "/control/verbose 0",
    "/run/verbose 0",
    "/event/verbose 0",
    "/tracking/verbose 0",
    "",
    "/beamscan/target/material " ++ p.material,
    "/beamscan/target/thickness " ++ thickness ++ " mm",
    "",
    "/run/initialize",
    "",
    "/gun/particle " ++ p.particle.name,
    "/gun/energy " ++ Fixed.write 6 p.kineticEnergy ++ " MeV",
    "/gun/direction 0 0 1",
    "/gun/position 0 0 -80 cm",
    "",
    "/beamscan/output/filename " ++ p.output,
    "",
    "/run/beamOn " ++ events]

/-- The macro that runs a point. -/
def macroText (p : Point) : String :=
  String.join (p.macroLines.map (· ++ "\n"))

end Point

namespace Request

/-- The directory for the results of a point. -/
def resultDirectory (results stem : String) : String := Path.join results stem

/-- The point of a target and a momentum. -/
def point (request : Request) (particle : Particle) (results : String) (t : Target)
    (momentum : Float) : Point where
  targetName := t.name
  material := t.material
  thickness := t.thickness
  momentum := momentum
  particle := particle
  events := request.beam.events
  output :=
    Path.join (resultDirectory results (Point.stemOf t.name momentum t.thickness)) "events.csv"

/-- The points of a scan; `none` if no species has the beam's name. -/
def points? (request : Request) (results : String) : Option (List Point) :=
  request.particle?.map fun particle =>
    request.targets.flatMap fun t => request.beam.momenta.map (request.point particle results t)

/-- There is a point for every target and every momentum. -/
theorem length_points? {request : Request} {results : String} {ps : List Point}
    (h : request.points? results = some ps) :
    ps.length = request.targets.length * request.beam.momenta.length := by
  obtain ⟨particle, _, rfl⟩ := Option.map_eq_some_iff.1 h
  generalize request.targets = ts
  induction ts with
  | nil => simp
  | cons t ts ih => simp [ih, Nat.add_mul, Nat.add_comm]

end Request

end Telescope.Scan
