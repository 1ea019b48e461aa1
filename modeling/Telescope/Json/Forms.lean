import Telescope.Detector.Layout
import Telescope.Json.Record
import Telescope.Table.Record
import Telescope.Trace.Synthetic

/-!
# The JSON of settings and table records

Settings are records all of whose fields may be left out; a table record needs all of its columns. A
species is its name, or an object with that name alone and no value.
-/

namespace Telescope

namespace Particle

/-- The name of a species. -/
def toJson (p : Particle) : Json := .ofText p.name

/-- The species of a name. -/
def ofJson? : Json → Option Particle
  | .string (some name) => ofName? name
  | .object [(some name, .null)] => ofName? name
  | _ => none

end Particle

namespace Detector.Config

/-- The fields of a detector's settings. -/
def fieldNames : List String := ["target_material", "target_thickness", "use_magnet", "magnet_field_t"]

/-- The record of a detector's settings. -/
def toJson (c : Config) : Json :=
  .ofFields [("target_material", .ofText c.targetMaterial),
    ("target_thickness", .ofFloat c.targetThickness), ("use_magnet", .bool c.useMagnet),
    ("magnet_field_t", .ofFloat c.magnetField)]

/-- The settings of a record. -/
def ofJson? (value : Json) : Option Config :=
  match value.slots? false fieldNames with
  | some [material, thickness, useMagnet, field] => do
    return ⟨← Json.withDefault? default.targetMaterial Json.text? material,
      ← Json.withDefault? default.targetThickness Json.float? thickness,
      ← Json.withDefault? default.useMagnet Json.bool? useMagnet,
      ← Json.withDefault? default.magnetField Json.float? field⟩
  | _ => none

end Detector.Config

namespace Synthetic

/-- The fields of the settings of a synthetic trace. -/
def fieldNames : List String :=
  ["events", "seed", "kink_mrad", "momentum_loss_mev", "plane_efficiency", "calo_fraction"]

/-- The record of the settings of a synthetic trace. -/
def toJson (s : Synthetic) : Json :=
  .ofFields [("events", .ofNat s.events.toNat), ("seed", .ofNat s.seed.toNat),
    ("kink_mrad", .ofFloat s.kink), ("momentum_loss_mev", .ofFloat s.momentumLoss),
    ("plane_efficiency", .ofFloat s.efficiency), ("calo_fraction", .ofFloat s.caloFraction)]

/-- The settings of a record. -/
def ofJson? (value : Json) : Option Synthetic :=
  match value.slots? false fieldNames with
  | some [events, seed, kink, loss, efficiency, fraction] => do
    return ⟨← Json.withDefault? default.events Json.unsigned? events,
      ← Json.withDefault? default.seed Json.unsigned? seed,
      ← Json.withDefault? default.kink Json.float? kink,
      ← Json.withDefault? default.momentumLoss Json.float? loss,
      ← Json.withDefault? default.efficiency Json.float? efficiency,
      ← Json.withDefault? default.caloFraction Json.float? fraction⟩
  | _ => none

end Synthetic

namespace Table.Record

/-- The record of a line of the table. -/
def toJson (r : Record) : Json :=
  .ofFields (r.fields.map fun (name, x) => (name, .ofFloat x))

/-- The line of the table of a record. -/
def ofJson? (value : Json) : Option Record :=
  match (value.slots? false columns).bind (·.mapM (Json.required? Json.float?)) with
  | some [theta3d, thetaX, thetaY, pIn, pOut, deltaP, xTarget, yTarget, caloEdep] =>
    some ⟨theta3d, thetaX, thetaY, pIn, pOut, deltaP, xTarget, yTarget, caloEdep⟩
  | _ => none

end Table.Record

end Telescope
