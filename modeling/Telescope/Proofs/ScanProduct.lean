import Telescope.Proofs.RequestProblems
import Telescope.Proofs.VolumeNames
import Telescope.Scan.Point

/-!
# The points of a valid request

A request is checked once, and later its points are listed and a detector is built for each of them.
Neither looks at the checks again, so both rely on what was checked.

* `getElem?_flatMap_map`: where two lists are combined, the place of a result is read as a number of two
  digits, the second of which counts the second list;
* `Request.getElem?_points`: so the point of a target and a momentum stands at the place that their
  places say (`Point.Measures` is what it has of the request);
* `Detector.Layout.warns_iff`: a detector is built with a warning just if its material is unknown, and
  otherwise has a target of the material (`Detector.Layout.HasTarget`).

For a valid request nothing is left to go wrong (`Request.points_of_valid`).

What is built for a point takes the material from the catalog and goes on with granite if there is
none of this name. The fallback is silent but for a warning, so it is the warning that has to be
excluded.
-/

namespace Telescope

/-- The results of two lists stand row by row. A row is as long as the second list, and the
induction is on the first. -/
theorem getElem?_flatMap_map {α β γ : Type} {xs : List α} {ys : List β} {make : α → β → γ} {i j : Nat}
    {x : α} {y : β} (hx : xs[i]? = some x) (hy : ys[j]? = some y) :
    (xs.flatMap fun x => ys.map (make x))[i * ys.length + j]? = some (make x y) := by
  obtain ⟨hj, -⟩ := List.getElem?_eq_some_iff.1 hy
  induction xs generalizing i with
  | nil => exact nomatch hx
  | cons first xs ih =>
    rw [List.flatMap_cons]
    cases i with
    | zero =>
      obtain rfl := Option.some.inj hx
      rw [Nat.zero_mul, Nat.zero_add, List.getElem?_append_left (by rwa [List.length_map]),
        List.getElem?_map, hy, Option.map_some]
    | succ i =>
      have hplace : (i + 1) * ys.length + j = (ys.map (make first)).length + (i * ys.length + j) := by
        rw [List.length_map, Nat.succ_mul]
        omega
      rw [hplace, List.getElem?_append_right (Nat.le_add_right _ _), Nat.add_sub_cancel_left]
      exact ih hx

/-! ## Detectors

A name that the catalog does not have is replaced by another, with a warning. The absence of a
warning is therefore what tells that the material is the one that was asked for. -/

/-- The warning of a catalog that does not have a name is the only thing it says. -/
theorem Catalog.resolve_warnings (catalog : Catalog) (name : String) :
    (∀ record ∈ (catalog.resolve name).2, record.level = .warn) ∧
      ((catalog.resolve name).2 = [] ↔ name ∈ catalog.names) := by
  rw [← contains_iff, contains, resolve]
  cases catalog.find? name <;> simp [Log.warn]

namespace Detector.Layout

variable {config : Config} {catalog : Catalog}

/-- **A detector is built with a warning just if its material is unknown.** The target is the only
part whose material is chosen, and the catalog has all the others. -/
theorem warns_iff : (∃ record ∈ (build config catalog).2, record.level = .warn) ↔
    config.targetMaterial ∉ catalog.names := by
  let report := banner config (catalog.resolve config.targetMaterial).1 ++
    if config.useMagnet then [fieldReport config.magnetField] else []
  have hreport : ∀ record ∈ report, record.level = .info := by
    intro record hrecord
    obtain hrecord | hrecord := List.mem_append.1 hrecord
    · simp only [banner, List.mem_cons, List.not_mem_nil, or_false] at hrecord
      obtain rfl | rfl | rfl | rfl | rfl := hrecord <;> rfl
    · obtain ⟨-, hrecord⟩ := List.mem_ite_nil_right.1 hrecord
      obtain rfl := List.mem_singleton.1 hrecord
      rfl
  have hrecords : (build config catalog).2 = (catalog.resolve config.targetMaterial).2 ++ report :=
    List.append_assoc _ _ _
  obtain ⟨hwarn, hnil⟩ := catalog.resolve_warnings config.targetMaterial
  rw [hrecords, ← hnil]
  constructor
  · rintro ⟨record, hrecord, hlevel⟩ hquiet
    rw [hquiet] at hrecord
    exact nomatch hlevel.symm.trans (hreport record hrecord)
  · intro hloud
    obtain ⟨record, hrecord⟩ := List.exists_mem_of_ne_nil _ hloud
    exact ⟨record, List.mem_append_left _ hrecord, hwarn record hrecord⟩

/-- The detector has a target of this material and this thickness. -/
structure HasTarget (layout : Layout) (catalog : Catalog) (material : String) (thickness : Float) :
    Prop where
  /-- the target is made of what the catalog has under this name -/
  found : catalog.find? material = some layout.targetMaterial
  /-- and that has the name -/
  name : layout.targetMaterial.name = material
  /-- the volume of the target is made of it too, and is so thick -/
  volume : ∃ v, layout.volume? layout.sensitive.target = some v ∧ v.name = "Target" ∧
    v.material = material ∧ v.halfExtent.z = thickness / 2.0

/-- A detector with a known material has a target of it. The volume of the target is the one that
its number finds, so the thickness is that of the volume as it stands. -/
theorem hasTarget_build (h : config.targetMaterial ∈ catalog.names) :
    (build config catalog).1.HasTarget catalog config.targetMaterial config.targetThickness := by
  have hknown := Catalog.contains_iff.2 h
  obtain ⟨material, hfound⟩ := Option.isSome_iff_exists.1 hknown
  have hmaterial : (catalog.resolve config.targetMaterial).1 = material := by
    rw [Catalog.resolve, hfound]
  have hname := Catalog.name_of_find? hfound
  have hname' := (Catalog.resolve_of_contains hknown).1
  exact ⟨hfound.trans (congrArg some hmaterial.symm), hname',
    _, volume?_build .target, rfl, hname', rfl⟩

end Detector.Layout

/-! ## Points

The list of points is made once and read by its places. That the two agree is the law of combined
lists, with what a point has of its target and its momentum. -/

namespace Scan

/-- What a point has of a request, a target and a momentum. -/
structure Point.Measures (p : Point) (request : Request) (results : String) (t : Target)
    (momentum : Float) : Prop where
  /-- the name of the target -/
  targetName : p.targetName = t.name
  /-- its material -/
  material : p.material = t.material
  /-- its thickness -/
  thickness : p.thickness = t.thickness
  /-- the momentum -/
  momentum : p.momentum = momentum
  /-- the species of the beam -/
  particle : request.particle? = some p.particle
  /-- its number of events -/
  events : p.events = request.beam.events
  /-- and a file in the directory of its own name -/
  output : p.output = Path.join (Path.join results p.stem) "events.csv"

namespace Request

variable {request : Request} {results : String} {points : List Point}

/-- The file of a point lies in the directory of its name. -/
theorem output_point (request : Request) (particle : Particle) (results : String) (t : Target)
    (m : Float) : (request.point particle results t m).output =
      Path.join (Path.join results (request.point particle results t m).stem) "events.csv" := by
  simp only [point, resultDirectory, Point.stem]

/-- What a point is made of is what it measures. -/
theorem point_measures {particle : Particle} (h : request.particle? = some particle)
    (t : Target) (momentum : Float) :
    (request.point particle results t momentum).Measures request results t momentum :=
  ⟨rfl, rfl, rfl, rfl, h, rfl, output_point request particle results t momentum⟩

/-- **Points stand in the order of the request,** target by target and momentum by momentum. -/
theorem getElem?_points (h : request.points? results = some points) {i j : Nat} {t : Target}
    {momentum : Float} (ht : request.targets[i]? = some t)
    (hm : request.beam.momenta[j]? = some momentum) :
    ∃ p, points[i * request.beam.momenta.length + j]? = some p ∧
      p.Measures request results t momentum := by
  obtain ⟨particle, hparticle, rfl⟩ := Option.map_eq_some_iff.1 h
  exact ⟨_, getElem?_flatMap_map ht hm, point_measures hparticle t momentum⟩

/-- Every point measures some target at some momentum, so what holds of all combinations holds of
all points. -/
theorem exists_of_mem_points (h : request.points? results = some points) {p : Point}
    (hp : p ∈ points) : ∃ t ∈ request.targets, ∃ momentum ∈ request.beam.momenta,
      p.Measures request results t momentum := by
  obtain ⟨particle, hparticle, rfl⟩ := Option.map_eq_some_iff.1 h
  obtain ⟨t, ht, hp⟩ := List.mem_flatMap.1 hp
  obtain ⟨momentum, hm, rfl⟩ := List.mem_map.1 hp
  exact ⟨t, ht, momentum, hm, point_measures hparticle t momentum⟩

/-- **A valid request has all its points.** There is one for every target and every momentum, at the
place that their places say, and at least one. Whatever else is chosen for a detector, one with the
material and the thickness of a point is built without a warning and has a target of both. -/
theorem points_of_valid {request : Request} (hvalid : request.problems Catalog.standard = [])
    (results : String) :
    ∃ points, request.points? results = some points ∧
      points.length = request.targets.length * request.beam.momenta.length ∧ 1 ≤ points.length ∧
      (∀ i j t momentum, request.targets[i]? = some t → request.beam.momenta[j]? = some momentum →
        ∃ p, points[i * request.beam.momenta.length + j]? = some p ∧
          p.Measures request results t momentum) ∧
      ∀ p ∈ points, ∀ config : Detector.Config, config.targetMaterial = p.material →
        config.targetThickness = p.thickness →
          (∀ record ∈ (Detector.Layout.build config Catalog.standard).2, record.level ≠ .warn) ∧
          (Detector.Layout.build config Catalog.standard).1.HasTarget Catalog.standard p.material
            p.thickness := by
  have hsound := problems_eq_nil_iff.1 hvalid
  obtain ⟨particle, hparticle⟩ := hsound.exists_particle?
  obtain ⟨points, hpoints⟩ : ∃ points, request.points? results = some points :=
    ⟨_, by rw [points?, hparticle, Option.map_some]⟩
  have hlength := length_points? hpoints
  refine ⟨points, hpoints, hlength, ?_, fun i j t momentum ht hm => getElem?_points hpoints ht hm, ?_⟩
  · rw [hlength]
    exact Nat.mul_pos (List.length_pos_iff.2 hsound.targets) (List.length_pos_iff.2 hsound.momenta)
  · intro p hp config hmaterial hthickness
    obtain ⟨t, ht, momentum, -, hp⟩ := exists_of_mem_points hpoints hp
    have hknown : config.targetMaterial ∈ Catalog.standard.names := by
      rw [hmaterial, hp.material]
      exact hsound.material t ht
    rw [← hmaterial, ← hthickness]
    refine ⟨fun record hrecord hwarn => ?_, Detector.Layout.hasTarget_build hknown⟩
    exact Detector.Layout.warns_iff.1 ⟨record, hrecord, hwarn⟩ hknown

/-- Two targets at two momenta. -/
def slabsRequest : Request where
  targets := [⟨"granite", "Granite", 10.0⟩, ⟨"pe", "G4_POLYETHYLENE", 5.0⟩]
  beam := ⟨"proton", [2.0, 5.0], 1000⟩

/-- The third of the four points is the second target at the first momentum, and a detector for it has
polyethylene in its target. -/
theorem points_of_valid_slabs :
    slabsRequest.problems Catalog.standard = [] ∧
      ∃ points p, slabsRequest.points? "results" = some points ∧ points.length = 4 ∧
        points[2]? = some p ∧
        p.Measures slabsRequest "results" ⟨"pe", "G4_POLYETHYLENE", 5.0⟩ 2.0 ∧
        (Detector.Layout.build ⟨"G4_POLYETHYLENE", 5.0, false, 0.5⟩ Catalog.standard).1.HasTarget
          Catalog.standard "G4_POLYETHYLENE" 5.0 := by
  have hvalid : slabsRequest.problems Catalog.standard = [] := by
    rw [← List.isEmpty_iff]
    decide +kernel
  obtain ⟨points, hpoints, hlength, -, hplace, hdetector⟩ := points_of_valid hvalid "results"
  obtain ⟨p, hp, hmeasures⟩ := hplace 1 0 _ _ rfl rfl
  refine ⟨hvalid, points, p, hpoints, hlength, hp, hmeasures, ?_⟩
  have htarget := (hdetector p (List.mem_of_getElem? hp) ⟨"G4_POLYETHYLENE", 5.0, false, 0.5⟩
    hmeasures.material.symm hmeasures.thickness.symm).2
  rwa [hmeasures.material, hmeasures.thickness] at htarget

end Request

end Scan

end Telescope
