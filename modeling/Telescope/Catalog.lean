import Telescope.Log
import Telescope.Material

/-!
# The material catalog

Two sets of materials are known by name: the reference materials of the simulation toolkit, and
composites of our own for geological samples. A name is looked up in the reference set first. Where
a material is needed whatever the name, an unknown one is replaced by polyethylene, with a warning.
-/

namespace Telescope

open Element in
/-- The toolkit's reference materials, in the order of their names. -/
def referenceMaterials : List Material := [
  ⟨"G4_AIR", 0.00120479,
    [(carbon, 0.000124), (nitrogen, 0.755268), (oxygen, 0.231781), (argon, 0.012827)]⟩,
  ⟨"G4_ALUMINUM_OXIDE", 3.97, [(oxygen, 0.470749), (aluminium, 0.529251)]⟩,
  ⟨"G4_CALCIUM_CARBONATE", 2.80, [(carbon, 0.120003), (oxygen, 0.479554), (calcium, 0.400443)]⟩,
  ⟨"G4_FERRIC_OXIDE", 5.2, [(oxygen, 0.300567), (iron, 0.699433)]⟩,
  ⟨"G4_LEAD_OXIDE", 9.53, [(oxygen, 0.071682), (lead, 0.928318)]⟩,
  ⟨"G4_MYLAR", 1.40, [(hydrogen, 0.041959), (carbon, 0.625017), (oxygen, 0.333025)]⟩,
  ⟨"G4_NYLON-6-6", 1.14,
    [(hydrogen, 0.097976), (carbon, 0.636856), (nitrogen, 0.123779), (oxygen, 0.141389)]⟩,
  ⟨"G4_PLEXIGLASS", 1.19, [(hydrogen, 0.080538), (carbon, 0.599848), (oxygen, 0.319614)]⟩,
  ⟨"G4_POLYETHYLENE", 0.94, [(hydrogen, 0.143711), (carbon, 0.856289)]⟩,
  ⟨"G4_POLYPROPYLENE", 0.90, [(hydrogen, 0.143711), (carbon, 0.856289)]⟩,
  ⟨"G4_POLYSTYRENE", 1.06, [(hydrogen, 0.077421), (carbon, 0.922579)]⟩,
  ⟨"G4_POLYVINYL_CHLORIDE", 1.30,
    [(hydrogen, 0.04838), (carbon, 0.38436), (chlorine, 0.56726)]⟩,
  ⟨"G4_Pb", 11.35, [(lead, 1.0)]⟩,
  ⟨"G4_SILICON_DIOXIDE", 2.32, [(silicon, 0.467465), (oxygen, 0.532535)]⟩,
  ⟨"G4_Si", 2.33, [(silicon, 1.0)]⟩]

open Element in
/-- The composites, in the order of their names. Their fractions come from oxide analyses, fall a
little short of one, and are kept as they are. -/
def customMaterials : List Material := [
  ⟨"Granite", 2.70,
    [(silicon, 0.3363), (oxygen, 0.4810), (aluminium, 0.0741), (potassium, 0.0332),
      (sodium, 0.0223), (iron, 0.0210), (calcium, 0.0143)]⟩,
  ⟨"Obsidian", 2.40,
    [(silicon, 0.3505), (oxygen, 0.4830), (aluminium, 0.0688), (sodium, 0.0371),
      (potassium, 0.0332), (iron, 0.0140), (calcium, 0.0071)]⟩]

open Element in
/-- What stands in for an unknown material. -/
def polyethylene : Material :=
  ⟨"G4_POLYETHYLENE", 0.94, [(hydrogen, 0.143711), (carbon, 0.856289)]⟩

/-- Materials by name. -/
structure Catalog where
  /-- the reference materials -/
  reference : List Material
  /-- the composites -/
  custom : List Material
  /-- what an unknown name is replaced by -/
  fallback : Material

namespace Catalog

/-- The catalog that the program works with. -/
def standard : Catalog where
  reference := referenceMaterials
  custom := customMaterials
  fallback := polyethylene

/-- The material of this name, from the reference set if it has one. -/
def find? (catalog : Catalog) (name : String) : Option Material :=
  (catalog.reference.find? fun m => m.name == name).or (catalog.custom.find? fun m => m.name == name)

/-- Whether the name is known. -/
def contains (catalog : Catalog) (name : String) : Bool :=
  (catalog.find? name).isSome

/-- All names, the reference set first. -/
def names (catalog : Catalog) : List String :=
  catalog.reference.map Material.name ++ catalog.custom.map Material.name

/-- The material of this name, or the fallback with a warning. -/
def resolve (catalog : Catalog) (name : String) : Material × List Log.Record :=
  match catalog.find? name with
  | some material => (material, [])
  | none =>
    (catalog.fallback,
      [Log.warn ("material " ++ name ++ " not found, using " ++ catalog.fallback.name)])

/-- A material that is found has the name that was asked for. -/
theorem name_of_find? {catalog : Catalog} {name : String} {material : Material}
    (h : catalog.find? name = some material) : material.name = name := by
  unfold find? at h
  rcases Option.or_eq_some_iff.1 h with h | ⟨_, h⟩
  · simpa using List.find?_some h
  · simpa using List.find?_some h

/-- A known name resolves to the material of that name, without a warning. -/
theorem resolve_of_contains {catalog : Catalog} {name : String} (h : catalog.contains name = true) :
    (catalog.resolve name).1.name = name ∧ (catalog.resolve name).2 = [] := by
  obtain ⟨material, hm⟩ := Option.isSome_iff_exists.1 h
  simp [resolve, hm, name_of_find? hm]

end Catalog

end Telescope
