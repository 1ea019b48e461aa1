import Telescope.Json.Record
import Telescope.Trace.Event

/-!
# The JSON of events

An event of a trace is a record of its number and its steps; a step without a volume leaves that
field out, and a step without an energy has left none.
-/

namespace Telescope

/-- Three numbers. -/
def Vector3.toJson (v : Vector3) : Json :=
  .array [.ofFloat v.x, .ofFloat v.y, .ofFloat v.z]

/-- Three numbers, no more and no less. -/
def Vector3.ofJson? (value : Json) : Option Vector3 :=
  match value.listOf? Json.float? with
  | some [x, y, z] => some ⟨x, y, z⟩
  | _ => none

namespace TraceStep

/-- The fields of a step. -/
def fieldNames : List String := ["volume", "position", "momentum", "edep"]

/-- The record of a step. -/
def toJson (s : TraceStep) : Json :=
  .ofFields ((s.volume.toList.map fun name => ("volume", Json.ofText name)) ++
    [("position", s.position.toJson), ("momentum", s.momentum.toJson), ("edep", .ofFloat s.edep)])

/-- The step of a record. -/
def ofJson? (value : Json) : Option TraceStep :=
  match value.slots? false fieldNames with
  | some [volume, position, momentum, edep] => do
    return ⟨← Json.withDefault? none (Json.optional? Json.text?) volume,
      ← Json.required? Vector3.ofJson? position, ← Json.required? Vector3.ofJson? momentum,
      ← Json.withDefault? 0.0 Json.float? edep⟩
  | _ => none

end TraceStep

namespace TraceEvent

/-- The fields of an event. -/
def fieldNames : List String := ["event", "steps"]

/-- The record of an event. -/
def toJson (e : TraceEvent) : Json :=
  .ofFields [("event", .ofNat e.event.toNat), ("steps", .array (e.steps.map TraceStep.toJson))]

/-- The event of a record. -/
def ofJson? (value : Json) : Option TraceEvent :=
  match value.slots? false fieldNames with
  | some [event, steps] => do
    return ⟨← Json.required? Json.unsigned? event,
      ← Json.required? (Json.listOf? TraceStep.ofJson?) steps⟩
  | _ => none

/-- The event that a line of text stands for. -/
def ofLine? (line : List Char) : Option TraceEvent :=
  (Json.read? line).bind ofJson?

end TraceEvent

end Telescope
