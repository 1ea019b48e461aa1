import Telescope.Json.Record
import Telescope.Scan.Request
import Telescope.Yaml.Document

/-!
# Reading requests

People write requests in YAML; the same fields can be read from and written to JSON. A field that is
not known, or stands twice, makes the text unreadable. The species and the number of events of the
beam may be left out.
-/

namespace Telescope.Scan

/-- The fields of a target. -/
def Target.fieldNames : List String := ["name", "geant4_name", "thickness_mm"]

/-- The fields of a beam. -/
def Beam.fieldNames : List String := ["particle", "momenta_GeV", "num_events"]

/-- The fields of a request. -/
def Request.fieldNames : List String := ["materials", "beam"]

/-! ## YAML -/

open Yaml in
/-- The target that a node describes. -/
def Target.ofNode? (d : Document) (node : Node) : Option Target :=
  match d.slots? fieldNames node with
  | some [some name, some material, some thickness] => do
    return ⟨← d.text? name, ← d.text? material, ← d.float? thickness⟩
  | _ => none

open Yaml in
/-- The beam that a node describes. -/
def Beam.ofNode? (d : Document) (node : Node) : Option Beam :=
  match d.slots? fieldNames node with
  | some [particle, some momenta, events] => do
    let particle ← match particle with
      | some node => d.text? node
      | none => some usualParticle
    let events ← match events with
      | some node => d.unsigned? node
      | none => some usualEvents
    return ⟨particle, ← d.listOf? d.float? momenta, events⟩
  | _ => none

open Yaml in
/-- The request that a node describes. -/
def Request.ofNode? (d : Document) (node : Node) : Option Request :=
  match d.slots? fieldNames node with
  | some [some targets, some beam] => do
    return ⟨← d.listOf? (Target.ofNode? d) targets, ← Beam.ofNode? d beam⟩
  | _ => none

/-- The request that a YAML text describes. -/
def Request.ofYaml? (text : String) : Option Request :=
  match Yaml.Document.ofText? text.toList with
  | some d => ofNode? d d.root
  | none => none

/-! ## JSON -/

/-- The target of a record. -/
def Target.ofJson? (value : Json) : Option Target :=
  match value.slots? true fieldNames with
  | some [name, material, thickness] => do
    return ⟨← Json.required? Json.text? name, ← Json.required? Json.text? material,
      ← Json.required? Json.float? thickness⟩
  | _ => none

/-- The record of a target. -/
def Target.toJson (t : Target) : Json :=
  .ofFields [("name", .ofText t.name), ("geant4_name", .ofText t.material),
    ("thickness_mm", .ofFloat t.thickness)]

/-- The beam of a record. -/
def Beam.ofJson? (value : Json) : Option Beam :=
  match value.slots? true fieldNames with
  | some [particle, momenta, events] => do
    return ⟨← Json.withDefault? usualParticle Json.text? particle,
      ← Json.required? (Json.listOf? Json.float?) momenta,
      ← Json.withDefault? usualEvents Json.unsigned? events⟩
  | _ => none

/-- The record of a beam. -/
def Beam.toJson (b : Beam) : Json :=
  .ofFields [("particle", .ofText b.particle), ("momenta_GeV", .array (b.momenta.map .ofFloat)),
    ("num_events", .ofNat b.events.toNat)]

/-- The request of a record. -/
def Request.ofJson? (value : Json) : Option Request :=
  match value.slots? true fieldNames with
  | some [targets, beam] => do
    return ⟨← Json.required? (Json.listOf? Target.ofJson?) targets,
      ← Json.required? Beam.ofJson? beam⟩
  | _ => none

/-- The record of a request. -/
def Request.toJson (request : Request) : Json :=
  .ofFields [("materials", .array (request.targets.map Target.toJson)),
    ("beam", request.beam.toJson)]

end Telescope.Scan
