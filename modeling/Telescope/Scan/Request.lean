import Telescope.Catalog
import Telescope.Decimal.Style
import Telescope.Particle
import Telescope.Text.Blank

/-!
# Scan requests

A scan measures several targets at several beam momenta. A request says which; `Request.problems`
lists everything about it that makes no sense, each problem with the place it belongs to.
-/

namespace Telescope.Scan

/-- One target of a scan. -/
structure Target where
  /-- the name by which people know it, and by which its files are named -/
  name : String
  /-- the name of its material in the catalog -/
  material : String
  /-- its thickness in mm -/
  thickness : Float

/-- The beam of a scan. -/
structure Beam where
  /-- the name of the species -/
  particle : String
  /-- the momenta in GeV -/
  momenta : List Float
  /-- the number of events at every point -/
  events : UInt64

/-- A scan. -/
structure Request where
  /-- its targets -/
  targets : List Target
  /-- its beam -/
  beam : Beam

/-- The species of a beam that names none. -/
def Beam.usualParticle : String := "e-"

/-- The number of events of a beam that gives none. -/
def Beam.usualEvents : UInt64 := 10000

/-! ## Problems -/

/-- What makes no sense about a request; targets and momenta are counted from zero. -/
inductive Problem
  /-- there is no target -/
  | noTarget
  /-- a target's name has nothing but blanks -/
  | blankName (target : Nat)
  /-- the catalog does not have a target's material -/
  | unknownMaterial (target : Nat) (material : String)
  /-- a target has no thickness -/
  | noThickness (target : Nat) (thickness : Float)
  /-- no species has the name -/
  | unknownParticle (particle : String)
  /-- there is no momentum -/
  | noMomentum
  /-- a momentum is not positive -/
  | badMomentum (index : Nat) (momentum : Float)
  /-- there are no events -/
  | noEvents

/-- The message of a problem: its place, and what is wrong there. -/
def Problem.message : Problem → String
  | .noTarget => "materials: at least one material is required"
  | .blankName i => "materials." ++ toString i ++ ".name: must not be empty"
  | .unknownMaterial i material =>
    "materials." ++ toString i ++ ".geant4_name: unknown material " ++ Text.quote material
  | .noThickness i thickness =>
    "materials." ++ toString i ++ ".thickness_mm: " ++ NumberStyle.plain.write thickness
      ++ " is not > 0"
  | .unknownParticle particle => "beam.particle: " ++ Particle.unknownMessage particle
  | .noMomentum => "beam.momenta_GeV: at least one momentum is required"
  | .badMomentum i momentum =>
    "beam.momenta_GeV." ++ toString i ++ ": " ++ NumberStyle.plain.write momentum ++ " is not > 0"
  | .noEvents => "beam.num_events: must be at least 1"

namespace Target

/-- The problems of the target with this number. A thickness that is no number is none. -/
def problems (catalog : Catalog) (t : Target) (i : Nat) : List Problem :=
  (if (Text.trim t.name.toList).isEmpty then [.blankName i] else [])
    ++ (if catalog.contains t.material then [] else [.unknownMaterial i t.material])
    ++ (if t.thickness > 0.0 then [] else [.noThickness i t.thickness])

end Target

namespace Request

/-- The species of the beam. -/
def particle? (request : Request) : Option Particle :=
  Particle.ofName? request.beam.particle

/-- The problems of a momentum. -/
def momentumProblems (momentum : Float) (i : Nat) : List Problem :=
  if momentum > 0.0 then [] else [.badMomentum i momentum]

/-- All problems, in the order of the request. -/
def problems (catalog : Catalog) (request : Request) : List Problem :=
  (if request.targets.isEmpty then [.noTarget] else [])
    ++ request.targets.zipIdx.flatMap (fun (t, i) => t.problems catalog i)
    ++ (if request.particle?.isNone then [.unknownParticle request.beam.particle] else [])
    ++ (if request.beam.momenta.isEmpty then [.noMomentum] else [])
    ++ request.beam.momenta.zipIdx.flatMap (fun (p, i) => momentumProblems p i)
    ++ (if request.beam.events = 0 then [.noEvents] else [])

end Request

end Telescope.Scan
