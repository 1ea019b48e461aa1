import Mathlib.Data.List.Nodup
import Telescope.Trace.Event

/-!
# Volumes by number and by name

A volume of the detector is meant in three ways: steps give its number, traces its name, and the
sensitive volumes are numbers that were kept when the detector was built. All of them are searched for in
lists, and a search finds what is meant just if nothing else has the same key.

* `find?_key_eq_some_iff`: in a list without a key twice the search by a key finds its one element;
* `Detector.placeParts_eq`: placing numbers the parts by their places in the order, and keeps for each
  sensitive part the number that this part got;
* `Detector.Part.nodup_ids`, `Detector.Part.nodup_names`: the parts have numbers and names of their own,
  so every part is found by both (`Detector.Layout.volume?_build`, `Detector.Layout.volumeNamed?_build`);
* `Detector.Part.route_id`: a step in a part goes where steps in that part go, which is said by the name
  of the part (`Detector.Part.route_eq_tracker_iff` and its neighbours);
* `TraceStep.place_build_eq_ok_iff`: a step that names its volume is placed in that volume, wherever it is.

Numbers, names and routes then agree for every detector (`Detector.Layout.names_agree`).

The numbers are not written down anywhere in the program: placing counts. So that a number which was
kept for a part is the number of this part is a fact about the order of placing, and it is the one
thing that would break silently if a part were placed in another order or placed twice.
-/

namespace Telescope

/-- Where no key stands twice, the element of a key is found. -/
theorem find?_key_eq_some_iff {α κ : Type} [BEq κ] [LawfulBEq κ] {key : α → κ} {xs : List α}
    (hkeys : (xs.map key).Nodup) {k : κ} {x : α} :
    (xs.find? fun y => key y == k) = some x ↔ x ∈ xs ∧ key x = k := by
  constructor
  · intro h
    exact ⟨List.mem_of_find?_eq_some h, eq_of_beq (List.find?_some (p := fun y => key y == k) h)⟩
  · rintro ⟨hx, rfl⟩
    obtain ⟨y, hy⟩ := Option.isSome_iff_exists.1
      (List.find?_isSome (p := fun y => key y == key x).2 ⟨x, hx, beq_self_eq_true _⟩)
    have hsame : key y = key x := eq_of_beq (List.find?_some (p := fun y => key y == key x) hy)
    rw [hy, List.inj_on_of_nodup_map hkeys (List.mem_of_find?_eq_some hy) hx hsame]

namespace Detector

/-! ## Parts

The parts are seven, so what has to be known about all of them is decided by evaluation, and what
has to be known about any two of them follows from numbers and names without repetition. -/

namespace Part

/-- The parts inside the world, in the order in which they are placed. -/
def inner : List Part :=
  [.tracker 0, .tracker 1, .tracker 2, .tracker 3, .target, .calorimeter]

/-- All parts, as they are placed. -/
def all : List Part := .world :: inner

/-- The number of a part is its place in that order. -/
def id (part : Part) : VolumeId := ⟨UInt32.ofNat (all.idxOf part)⟩

/-- The part at its place. -/
def place (targetMaterial : String) (targetThickness : Float) (part : Part) : Volume where
  id := part.id
  name := part.name
  material := part.material targetMaterial
  center := part.center
  halfExtent := (part.extent targetThickness).divide 2.0

/-- Every part is placed. -/
theorem mem_all (part : Part) : part ∈ all := by
  cases part with
  | tracker plane => match plane with
    | 0 | 1 | 2 | 3 => decide
  | _ => decide

/-- Parts are numbered as they are placed. -/
theorem numbers_eq_range :
    all.map (fun part => part.id.number.toNat) = List.range all.length := by decide

/-- So no number is given twice. -/
theorem nodup_ids : (all.map id).Nodup := by
  have hnumbers : ((all.map id).map fun id => id.number.toNat).Nodup := by
    rw [List.map_map]
    exact numbers_eq_range ▸ List.nodup_range
  exact hnumbers.of_map

/-- No name is given twice. -/
theorem nodup_names : (all.map name).Nodup := by decide

/-- So a name means one part. -/
theorem name_inj {a b : Part} : a.name = b.name ↔ a = b :=
  ⟨List.inj_on_of_nodup_map nodup_names (mem_all a) (mem_all b), congrArg name⟩

/-- Where the steps in a part go. -/
def route : Part → Route
  | .tracker plane => .tracker plane
  | .calorimeter => .calorimeter
  | .world | .target => .ignored

/-- Where the sensitive parts stand in the order of placing. -/
def sensitive : Sensitive where
  trackers := Vector.ofFn fun plane => (tracker plane).id
  target := target.id
  calorimeter := calorimeter.id

/-- A step with the number of a part goes where the steps in this part go. -/
theorem route_id (part : Part) : sensitive.route part.id = part.route := by
  have htrackers : ∀ plane : Fin 4,
      sensitive.route (Part.tracker plane).id = .tracker plane := by decide
  cases part with
  | tracker plane => exact htrackers plane
  | world | target | calorimeter => decide

/-- A step goes to the tracker plane whose number, counted from one, is in the name. -/
theorem route_eq_tracker_iff (part : Part) (k : Nat) :
    (∃ plane : Fin 4, plane.val = k ∧ part.route = .tracker plane) ↔
      part.name = "Tracker" ++ toString (k + 1) := by
  have hother : ∀ name ∈ ["World", "Target", "Calo"], name ≠ "Tracker" ++ toString (k + 1) := by
    intro name hname heq
    have hstart : name.toList.take 2 = ['T', 'r'] := by simp [heq]
    exact absurd hstart ((by decide : ∀ name ∈ ["World", "Target", "Calo"],
      name.toList.take 2 ≠ ['T', 'r']) name hname)
  have htext : ∀ n, toString (n + 1) = toString (k + 1) → n = k := by
    intro n h
    have hvalue := congrArg (fun text : String => Nat.ofDigitChars 10 text.toList 0) h
    simpa [Nat.toList_repr, Nat.ofDigitChars_toDigits] using hvalue
  cases part with
  | tracker plane =>
    constructor
    · rintro ⟨_, rfl, hplane⟩
      rw [Route.tracker.inj hplane]
      rfl
    · intro h
      exact ⟨plane, htext _ ((String.append_right_inj "Tracker").1 h), rfl⟩
  | world => exact iff_of_false (by simp [route]) (hother _ (by decide))
  | target => exact iff_of_false (by simp [route]) (hother _ (by decide))
  | calorimeter => exact iff_of_false (by simp [route]) (hother _ (by decide))

/-- Only the calorimeter takes energies. -/
theorem route_eq_calorimeter_iff (part : Part) :
    part.route = .calorimeter ↔ part.name = "Calo" := by
  rw [show "Calo" = calorimeter.name from rfl, name_inj]
  cases part <;> simp [route]

/-- A step goes nowhere if it is in the world or in the target. -/
theorem route_eq_ignored_iff (part : Part) :
    part.route = .ignored ↔ part.name = "World" ∨ part.name = "Target" := by
  rw [show "World" = world.name from rfl, show "Target" = target.name from rfl, name_inj, name_inj]
  cases part <;> simp [route]

end Part

/-- Placing counts right: every part gets the number of its place, and the numbers that are kept on the way
are those of the parts they are kept for. -/
theorem placeParts_eq (targetMaterial : String) (targetThickness : Float) :
    placeParts targetMaterial targetThickness [] =
      (Part.sensitive, Part.all.map (Part.place targetMaterial targetThickness)) := rfl

/-! ## Volumes

What holds of the parts is carried over to the volumes of a detector. The material and the thickness
of the target are the only things that two detectors can have different, and neither numbers nor
names depend on them. -/

namespace Layout

/-- With numbers of their own, volumes are found by them. -/
theorem volume?_eq_some_iff {layout : Layout} (h : (layout.volumes.map Volume.id).Nodup)
    {id : VolumeId} {v : Volume} : layout.volume? id = some v ↔ v ∈ layout.volumes ∧ v.id = id :=
  find?_key_eq_some_iff h

/-- With names of their own, volumes are found by them. -/
theorem volumeNamed?_eq_some_iff {layout : Layout} (h : (layout.volumes.map Volume.name).Nodup)
    {name : String} {v : Volume} :
    layout.volumeNamed? name = some v ↔ v ∈ layout.volumes ∧ v.name = name :=
  find?_key_eq_some_iff h

/-- A name that no volume has finds nothing. -/
theorem volumeNamed?_eq_none_iff {layout : Layout} {name : String} :
    layout.volumeNamed? name = none ↔ ∀ v ∈ layout.volumes, v.name ≠ name := by
  simp [volumeNamed?]

variable {config : Config} {catalog : Catalog} {v : Volume}

/-- The volumes of a detector are its parts at their places. -/
theorem volumes_build (config : Config) (catalog : Catalog) :
    (build config catalog).1.volumes = Part.all.map
      (Part.place (catalog.resolve config.targetMaterial).1.name config.targetThickness) :=
  congrArg Prod.snd (placeParts_eq _ _)

/-- Its sensitive volumes are the sensitive parts. -/
theorem sensitive_build (config : Config) (catalog : Catalog) :
    (build config catalog).1.sensitive = Part.sensitive :=
  congrArg Prod.fst (placeParts_eq _ _)

/-- The volumes of a detector are the places of parts, and nothing else is placed. -/
theorem mem_volumes_build : v ∈ (build config catalog).1.volumes ↔
    ∃ part : Part,
      part.place (catalog.resolve config.targetMaterial).1.name config.targetThickness = v := by
  rw [volumes_build, List.mem_map]
  exact ⟨fun ⟨part, _, h⟩ => ⟨part, h⟩, fun ⟨part, h⟩ => ⟨part, Part.mem_all part, h⟩⟩

/-- The volumes of a detector have numbers of their own. -/
theorem nodup_ids (config : Config) (catalog : Catalog) :
    ((build config catalog).1.volumes.map Volume.id).Nodup := by
  rw [volumes_build, List.map_map]
  exact Part.nodup_ids

/-- And they have names of their own. -/
theorem nodup_names (config : Config) (catalog : Catalog) :
    ((build config catalog).1.volumes.map Volume.name).Nodup := by
  rw [volumes_build, List.map_map]
  exact Part.nodup_names

/-- Every part is found by its number. -/
theorem volume?_build (part : Part) :
    (build config catalog).1.volume? part.id =
      some (part.place (catalog.resolve config.targetMaterial).1.name config.targetThickness) :=
  (volume?_eq_some_iff (nodup_ids config catalog)).2 ⟨mem_volumes_build.2 ⟨part, rfl⟩, rfl⟩

/-- Every part is found by its name. -/
theorem volumeNamed?_build (part : Part) :
    (build config catalog).1.volumeNamed? part.name =
      some (part.place (catalog.resolve config.targetMaterial).1.name config.targetThickness) :=
  (volumeNamed?_eq_some_iff (nodup_names config catalog)).2 ⟨mem_volumes_build.2 ⟨part, rfl⟩, rfl⟩

end Layout

end Detector

/-! ## Steps with names

A step of a trace may name its volume. It is then placed by the name, whatever its position is. -/

namespace TraceStep

open Detector (Layout Part)

variable {layout : Layout} {s : TraceStep} {id : VolumeId}

/-- A step with a volume keeps its position, its momentum and its energy. -/
theorem place_of_volumeIn (h : s.volumeIn layout = .ok id) :
    s.place layout = .ok ⟨id, s.position, s.momentum, s.edep⟩ := by
  rw [place, h]
  rfl

/-- A step with a name has the volume of this name, or an error with the name in it. -/
theorem place_of_name (layout : Layout) {name : String} (h : s.volume = some name) :
    (∃ v, layout.volumeNamed? name = some v ∧
      s.place layout = .ok ⟨v.id, s.position, s.momentum, s.edep⟩) ∨
    layout.volumeNamed? name = none ∧ s.place layout = .error (.unknownVolume name) := by
  cases hfound : layout.volumeNamed? name with
  | some v => exact .inl ⟨v, rfl, place_of_volumeIn (by simp only [volumeIn, h, hfound])⟩
  | none => exact .inr ⟨rfl, by simp only [place, volumeIn, h, hfound, Except.map]⟩

/-- In a detector a step with a name is placed in the part of this name. It gets the number of the
part and keeps everything else. -/
theorem place_build_eq_ok_iff {config : Detector.Config} {catalog : Catalog} {name : String}
    (h : s.volume = some name) {step : Step} :
    s.place (Layout.build config catalog).1 = .ok step ↔
      ∃ part : Part, part.name = name ∧ step = ⟨part.id, s.position, s.momentum, s.edep⟩ := by
  obtain ⟨v, hfound, hplace⟩ | ⟨hnone, hplace⟩ := place_of_name (Layout.build config catalog).1 h
  · obtain ⟨hv, rfl⟩ := (Layout.volumeNamed?_eq_some_iff (Layout.nodup_names config catalog)).1 hfound
    obtain ⟨part, rfl⟩ := Layout.mem_volumes_build.1 hv
    rw [hplace, Except.ok.injEq, eq_comm]
    refine ⟨fun hstep => ⟨part, rfl, hstep⟩, ?_⟩
    rintro ⟨other, hname, hstep⟩
    rwa [Part.name_inj.1 hname] at hstep
  · rw [hplace]
    refine iff_of_false nofun ?_
    rintro ⟨part, rfl, -⟩
    exact Layout.volumeNamed?_eq_none_iff.1 hnone _ (Layout.mem_volumes_build.2 ⟨part, rfl⟩) rfl

end TraceStep

namespace Detector.Layout

/-- **Numbers, names and routes agree for every detector.** Volumes are numbered as they are placed, none
has the number or the name of another, and each is found by both. A step with a name is placed, in the
volume of this name, exactly if there is one, and then the name alone decides where it goes: to a tracker
plane, counted from one in the name, to the calorimeter, or nowhere from the world and the target. -/
theorem names_agree (config : Config) (catalog : Catalog) :
    let layout := (build config catalog).1
    layout.volumes.map (fun v => v.id.number.toNat) = List.range layout.volumes.length ∧
    (layout.volumes.map Volume.id).Nodup ∧ (layout.volumes.map Volume.name).Nodup ∧
    (∀ v ∈ layout.volumes, layout.volume? v.id = some v ∧ layout.volumeNamed? v.name = some v) ∧
    ∀ (name : String) (position momentum : Vector3) (edep : Float),
      let s : TraceStep := ⟨some name, position, momentum, edep⟩
      ((∃ step, s.place layout = .ok step) ↔ ∃ v ∈ layout.volumes, v.name = name) ∧
      (∀ cause, s.place layout = .error cause → cause = .unknownVolume name) ∧
      ∀ step, s.place layout = .ok step →
        (∃ v ∈ layout.volumes, v.name = name ∧ step = ⟨v.id, position, momentum, edep⟩) ∧
        (∀ k : Nat,
          (∃ plane : Fin 4, plane.val = k ∧ layout.sensitive.route step.volume = .tracker plane) ↔
            name = "Tracker" ++ toString (k + 1)) ∧
        (layout.sensitive.route step.volume = .calorimeter ↔ name = "Calo") ∧
        (layout.sensitive.route step.volume = .ignored ↔ name = "World" ∨ name = "Target") := by
  intro layout
  refine ⟨?_, nodup_ids config catalog, nodup_names config catalog, fun v hv => ?_, ?_⟩
  · simp only [layout, volumes_build, List.map_map, List.length_map]
    exact Part.numbers_eq_range
  · obtain ⟨part, rfl⟩ := mem_volumes_build.1 hv
    exact ⟨volume?_build part, volumeNamed?_build part⟩
  · -- a step that names a part is placed in its volume, and the volume has the number of the part
    intro name position momentum edep s
    have hplace : ∀ {step}, s.place layout = .ok step ↔ _ := TraceStep.place_build_eq_ok_iff rfl
    refine ⟨⟨?_, ?_⟩, fun cause hcause => ?_, fun step hstep => ?_⟩
    · rintro ⟨step, hstep⟩
      obtain ⟨part, hname, -⟩ := hplace.1 hstep
      exact ⟨_, mem_volumes_build.2 ⟨part, rfl⟩, hname⟩
    · rintro ⟨v, hv, hname⟩
      obtain ⟨part, rfl⟩ := mem_volumes_build.1 hv
      exact ⟨_, hplace.2 ⟨part, hname, rfl⟩⟩
    · have hname : s.volume = some name := rfl
      obtain ⟨v, -, hok⟩ | ⟨-, herror⟩ := TraceStep.place_of_name layout hname
      · exact nomatch hcause.symm.trans hok
      · exact Except.error.inj (hcause.symm.trans herror)
    · obtain ⟨part, rfl, rfl⟩ := hplace.1 hstep
      have hroute : layout.sensitive.route part.id = part.route := by
        rw [sensitive_build, Part.route_id]
      refine ⟨⟨_, mem_volumes_build.2 ⟨part, rfl⟩, rfl, rfl⟩, ?_⟩
      rw [hroute]
      exact ⟨part.route_eq_tracker_iff, part.route_eq_calorimeter_iff, part.route_eq_ignored_iff⟩

end Detector.Layout

end Telescope
