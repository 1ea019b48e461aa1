import Telescope.Catalog
import Telescope.Decimal.Fixed
import Telescope.Detector.Volume
import Telescope.Unit

/-!
# The detector

Along the beam stand two tracker planes, the target, two more tracker planes and the calorimeter:

    Tracker1  Tracker2  |  Target  |  Tracker3  Tracker4  |  Calo

all inside a world of air. Only the target's material and thickness and the magnetic field can be
chosen (`Detector.Config`). `Detector.placeParts` places the parts one after another and
`Detector.Layout.build` makes the detector of them and reports on the target.
-/

namespace Telescope.Detector

/-! ## What can be chosen -/

/-- The choices of the user. -/
structure Config where
  /-- the target's material, by its name in the catalog -/
  targetMaterial : String
  /-- the thickness of the target along the beam, in mm -/
  targetThickness : Float
  /-- whether the magnet is on -/
  useMagnet : Bool
  /-- the field of the magnet in tesla -/
  magnetField : Float

/-- A centimetre of polyethylene, and no field. -/
def Config.default : Config where
  targetMaterial := "G4_POLYETHYLENE"
  targetThickness := 10.0 * Unit.mm
  useMagnet := false
  magnetField := 0.5

instance : Inhabited Config := ⟨Config.default⟩

/-! ## The parts -/

/-- The parts of the detector. -/
inductive Part
  /-- everything around the others -/
  | world
  /-- a tracker plane, counted along the beam -/
  | tracker (plane : Fin 4)
  /-- the sample -/
  | target
  /-- the calorimeter behind the last plane -/
  | calorimeter
deriving DecidableEq, Repr

namespace Part

/-- The name of a part. -/
def name : Part → String
  | .world => "World"
  | .tracker plane => "Tracker" ++ toString (plane.val + 1)
  | .target => "Target"
  | .calorimeter => "Calo"

/-- Where a tracker plane stands on the beam axis, in mm. -/
def trackerZ (plane : Fin 4) : Float :=
  match plane with
  | 0 => -50.0 * Unit.cm
  | 1 => -25.0 * Unit.cm
  | 2 => 25.0 * Unit.cm
  | 3 => 50.0 * Unit.cm

/-- The centre of a part. -/
def center : Part → Vector3
  | .world => Vector3.zero
  | .tracker plane => ⟨0.0, 0.0, trackerZ plane⟩
  | .target => Vector3.zero
  | .calorimeter => ⟨0.0, 0.0, 100.0 * Unit.cm⟩

/-- The edges of a part; the target is as thick as wanted. -/
def extent (targetThickness : Float) : Part → Vector3
  | .world => ⟨3.0 * Unit.m, 3.0 * Unit.m, 3.0 * Unit.m⟩
  | .tracker _ => ⟨4.0 * Unit.cm, 4.0 * Unit.cm, 300.0 * Unit.um⟩
  | .target => ⟨10.0 * Unit.cm, 10.0 * Unit.cm, targetThickness⟩
  | .calorimeter => ⟨15.0 * Unit.cm, 15.0 * Unit.cm, 30.0 * Unit.cm⟩

/-- The name of a part's material. -/
def material (targetMaterial : String) : Part → String
  | .world => "G4_AIR"
  | .tracker _ => "G4_Si"
  | .target => targetMaterial
  | .calorimeter => "G4_LEAD_OXIDE"

end Part

/-! ## Placing

Boxes are placed one after another, and nobody gives them numbers: a box is numbered by how many stand
already when it comes. So the numbers of the volumes whose steps matter are only known once these are
placed, and they are kept from there. -/

/-- Places a box of these edges behind the volumes that stand already; its number is how many they
are. -/
def placeBox (name material : String) (center extent : Vector3) : StateM (List Volume) VolumeId :=
  fun volumes =>
    let id : VolumeId := ⟨UInt32.ofNat volumes.length⟩
    (id, volumes ++ [⟨id, name, material, center, extent.divide 2.0⟩])

/-- The volumes whose steps matter. -/
structure Sensitive where
  /-- the tracker planes along the beam -/
  trackers : Vector VolumeId 4
  /-- the target -/
  target : VolumeId
  /-- the calorimeter -/
  calorimeter : VolumeId

/-- Places all parts: the world, the tracker planes along the beam, the target and the calorimeter.
Returns the numbers that the sensitive ones got. -/
def placeParts (targetMaterial : String) (targetThickness : Float) :
    StateM (List Volume) Sensitive := do
  let place (part : Part) : StateM (List Volume) VolumeId :=
    placeBox part.name (part.material targetMaterial) part.center (part.extent targetThickness)
  let _ ← place .world
  let mut trackers : Vector VolumeId 4 := Vector.replicate 4 ⟨0⟩
  for plane in List.finRange 4 do
    trackers := trackers.setIfInBounds plane (← place (.tracker plane))
  let target ← place .target
  let calorimeter ← place .calorimeter
  return ⟨trackers, target, calorimeter⟩

/-! ## The layout -/

/-- A detector that is built. -/
structure Layout where
  /-- the volumes as they were placed -/
  volumes : List Volume
  /-- at least the world is placed -/
  nonempty : volumes ≠ []
  /-- which of them matter -/
  sensitive : Sensitive
  /-- what the target is made of -/
  targetMaterial : Material
  /-- the uniform field along y in tesla, if the magnet is on -/
  field : Option Float

namespace Layout

/-- The volume around all others, which is placed first. -/
def world (layout : Layout) : Volume :=
  layout.volumes.head layout.nonempty

/-- The volumes in the world. -/
def inner (layout : Layout) : List Volume :=
  layout.volumes.tail

/-- The world is the first of the volumes, and the others follow it. -/
theorem volumes_eq (layout : Layout) : layout.volumes = layout.world :: layout.inner :=
  (List.cons_head_tail layout.nonempty).symm

/-- The volume with this number. -/
def volume? (layout : Layout) (id : VolumeId) : Option Volume :=
  layout.volumes.find? fun v => v.id == id

/-- The volume with this name. -/
def volumeNamed? (layout : Layout) (name : String) : Option Volume :=
  layout.volumes.find? fun v => v.name == name

/-- The volume that a point lies in: the first inner one that contains it, otherwise the world if
that does. -/
def locate (layout : Layout) (point : Vector3) : Option VolumeId :=
  ((layout.inner.find? fun v => v.contains point).or
    (if layout.world.contains point then some layout.world else none)).map Volume.id

/-- The report on the target. -/
def banner (config : Config) (material : Material) : List Log.Record :=
  [Log.info "BeamScan target configuration:",
    Log.info ("  material:   " ++ material.name),
    Log.info ("  thickness:  " ++ NumberStyle.plain.write (config.targetThickness / Unit.mm) ++ " mm"),
    Log.info ("  density:    " ++ NumberStyle.plain.write material.density ++ " g/cm3"),
    Log.info ("  rad.length: " ++ Fixed.write 3 material.radiationLength ++ " cm")]

/-- The report on the field. -/
def fieldReport (tesla : Float) : Log.Record :=
  Log.info ("magnetic field enabled: B = " ++ NumberStyle.plain.write tesla ++ " T (y-direction)")

/-- Builds the detector: finds the target's material, places all parts and reports. -/
def build (config : Config) (catalog : Catalog) : Layout × List Log.Record :=
  let (material, warnings) := catalog.resolve config.targetMaterial
  let placed := placeParts material.name config.targetThickness []
  let layout : Layout :=
    { volumes := placed.2
      nonempty := List.cons_ne_nil _ _
      sensitive := placed.1
      targetMaterial := material
      field := if config.useMagnet then some config.magnetField else none }
  (layout, warnings ++ banner config material
    ++ if config.useMagnet then [fieldReport config.magnetField] else [])

end Layout

end Telescope.Detector
