import Telescope.Proofs.DoubleOrder
import Telescope.Proofs.VolumeNames

/-!
# Finding the volume of a point

The parts of the detector are searched before the world is asked at all, so a point outside the world
is found in a part that sticks out of it.

* `Within` is one coordinate of a box. A coordinate in it is near the centre, up to the rounding
  (`Within.abs_sub_lt`);
* `Part.world_contains`: all parts but the target lie in the world;
* `Part.world_contains_target`: the target does as long as it is no thicker than the world;
* `Layout.locate_respects_world`: so nothing is found outside the world just for those targets.

The docstring of the search promises nothing outside the world, and the search itself looks at the
parts first. Which of the two wins is a question about the geometry: only the target has a size that
a user can choose, so only the target can reach out of the world. The threshold is exact, since a
thicker target contains the first double outside.
-/

namespace Telescope

open Double

/-! ## Boxes

A box is three intervals, one for each axis, and the axes do not meet until the very end. A
coordinate is in its interval if its distance from the centre, rounded, is not above half the edge.
The rounding matters only where the centre is not zero. -/

/-- A coordinate lies in a box with this centre and half of this edge. -/
def Within (center half x : Float) : Prop := (x - center).abs ≤ half

/-- A box contains a point if each coordinate is in its interval. -/
theorem Volume.contains_iff {v : Volume} {p : Vector3} :
    v.contains p = true ↔ Within v.center.x v.halfExtent.x p.x ∧
      Within v.center.y v.halfExtent.y p.y ∧ Within v.center.z v.halfExtent.z p.z := by
  unfold Volume.contains Within
  dsimp only
  rw [Bool.and_eq_true, Bool.and_eq_true, decide_eq_true_eq, decide_eq_true_eq, decide_eq_true_eq,
    and_assoc]
  rfl

namespace Within

variable {center half bound x : Float}

/-- The computed distance is at most half the edge. -/
theorem abs_value_le (h : Within center half x) : |value (x - center)| ≤ value half := by
  rw [← value_abs]
  exact value_le_of_le h

/-- A box that ends has only finite coordinates. -/
theorem isFinite (h : Within center half x) (hhalf : half.isFinite = true) :
    x.isFinite = true ∧ center.isFinite = true :=
  isFinite_of_sub (isFinite_of_abs_le h hhalf)

/-- The distance from the centre is rounded before it is compared, but not past a greater number. -/
theorem abs_sub_lt {b : ℚ} (h : Within center half x) (hhalf : half.isFinite = true)
    (hbound : Exactly bound b) (hlt : value half < b) : |value x - value center| < b := by
  obtain ⟨hx, hcenter⟩ := h.isFinite hhalf
  have hle := h.abs_value_le
  rw [(isRounded_sub hx hcenter).value_eq, abs_rounded] at hle
  by_contra hge
  have hmono := rounded_mono (not_lt.1 hge)
  rw [hbound.rounded_eq] at hmono
  linarith

/-- Around zero the distance is exact. -/
theorem zero_iff {b : ℚ} (hx : x.isFinite = true) (hhalf : Exactly half b) :
    Within 0.0 half x ↔ |value x| ≤ b := by
  have hsub := isRounded_sub hx exactly_zero.isFinite
  rw [exactly_zero.value_eq, sub_zero] at hsub
  rw [Within, le_iff_value ((isNaN_abs _).trans hsub.isNaN) hhalf.isNaN, value_abs,
    (hsub.exact ⟨hx, rfl⟩).value_eq, hhalf.value_eq]

end Within

namespace Detector

/-! ## The parts in the world

Sizes and places of the parts are constants, but for the thickness of the target. That they stand in
the world is checked for the constants by evaluation and carried to all points by the order. -/

/-- An edge of moderate length, not far from the middle of the detector. -/
def IsModerate (center half : Float) : Prop :=
  half.isFinite = true ∧ value half < 500 ∧ |value center| ≤ 1000

instance (center half : Float) : Decidable (IsModerate center half) :=
  inferInstanceAs (Decidable (_ ∧ _))

/-- A moderate edge near the middle does not reach out of the world. -/
theorem within_world {center half x : Float} (h : Within center half x)
    (hmoderate : IsModerate center half) : Within 0.0 (3.0 * Unit.m / 2.0) x := by
  obtain ⟨hhalf, hsmall, hcenter⟩ := hmoderate
  have hbound : Exactly 500.0 500 := by with_unfolding_all decide
  have hworld : Exactly (3.0 * Unit.m / 2.0) 1500 := by with_unfolding_all decide
  have hdistance := h.abs_sub_lt hhalf hbound hsmall
  rw [Within.zero_iff (h.isFinite hhalf).1 hworld]
  obtain ⟨hlow, hhigh⟩ := abs_le.1 hcenter
  obtain ⟨hbelow, habove⟩ := abs_lt.1 hdistance
  exact abs_le.2 ⟨by linarith, by linarith⟩

namespace Part

variable {material : String} {thickness : Float} {p : Vector3}

/-- The world is a cube of three metres around zero. The four lemmas of this kind replace the fields
of the parts by their numbers. -/
theorem contains_world_iff :
    (world.place material thickness).contains p = true ↔
      Within 0.0 (3.0 * Unit.m / 2.0) p.x ∧ Within 0.0 (3.0 * Unit.m / 2.0) p.y ∧
        Within 0.0 (3.0 * Unit.m / 2.0) p.z :=
  Volume.contains_iff

/-- A tracker plane is a thin square across the beam. -/
theorem contains_tracker_iff {plane : Fin 4} :
    ((tracker plane).place material thickness).contains p = true ↔
      Within 0.0 (4.0 * Unit.cm / 2.0) p.x ∧ Within 0.0 (4.0 * Unit.cm / 2.0) p.y ∧
        Within (trackerZ plane) (300.0 * Unit.um / 2.0) p.z :=
  Volume.contains_iff

/-- The target is a slab around zero, of the thickness that is wanted. -/
theorem contains_target_iff :
    (target.place material thickness).contains p = true ↔
      Within 0.0 (10.0 * Unit.cm / 2.0) p.x ∧ Within 0.0 (10.0 * Unit.cm / 2.0) p.y ∧
        Within 0.0 (thickness / 2.0) p.z :=
  Volume.contains_iff

/-- The calorimeter is a block behind the planes. -/
theorem contains_calorimeter_iff :
    (calorimeter.place material thickness).contains p = true ↔
      Within 0.0 (15.0 * Unit.cm / 2.0) p.x ∧ Within 0.0 (15.0 * Unit.cm / 2.0) p.y ∧
        Within (100.0 * Unit.cm) (30.0 * Unit.cm / 2.0) p.z :=
  Volume.contains_iff

/-- The parts whose size is fixed lie in the world. They are settled by evaluation, and only the
target is left. -/
theorem world_contains {part : Part} (hne : part ≠ .target)
    (h : (part.place material thickness).contains p = true) :
    (world.place material thickness).contains p = true := by
  rw [contains_world_iff]
  cases part with
  | world => exact contains_world_iff.1 h
  | target => exact absurd rfl hne
  | tracker plane =>
    obtain ⟨hx, hy, hz⟩ := contains_tracker_iff.1 h
    have hedge : IsModerate 0.0 (4.0 * Unit.cm / 2.0) := by with_unfolding_all decide
    have hplane : ∀ plane, IsModerate (trackerZ plane) (300.0 * Unit.um / 2.0) := by
      with_unfolding_all decide
    exact ⟨within_world hx hedge, within_world hy hedge, within_world hz (hplane plane)⟩
  | calorimeter =>
    obtain ⟨hx, hy, hz⟩ := contains_calorimeter_iff.1 h
    have hedge : IsModerate 0.0 (15.0 * Unit.cm / 2.0) := by with_unfolding_all decide
    have hdepth : IsModerate (100.0 * Unit.cm) (30.0 * Unit.cm / 2.0) := by with_unfolding_all decide
    exact ⟨within_world hx hedge, within_world hy hedge, within_world hz hdepth⟩

end Part

/-! ## The target

The thickness is halved before anything is compared with it. Half of a double is exact unless the
double is very small, and halving respects the order, so a comparison of the thickness with the
world is one of the halves. -/

section Half

variable {t : Float}

/-- Halving changes no infinity and no NaN. -/
theorem unpack_half (h : t.isFinite = false) :
    (t / 2.0).toModel.unpack = t.toModel.unpack := by
  change t.toModel.unpack.isFinite = false at h
  change (Float.Model.pack (Float.Model.UnpackedFloat.div .binary64 t.toModel.unpack
    (2.0 : Float).toModel.unpack)).unpack = _
  cases hparts : t.toModel.unpack with
  | notANumber => rfl
  | infinity s => cases s <;> rfl
  | zero s =>
    rw [hparts] at h
    exact nomatch h
  | finite s m e hm =>
    rw [hparts] at h
    exact nomatch h

/-- A half is the exact half, rounded. -/
theorem isRounded_half (h : t.isFinite = true) : IsRounded (value t / 2) (t / 2.0) := by
  have hdiv := isRounded_div h exactly_two.isFinite (exactly_two.value_eq ▸ two_ne_zero)
  rwa [exactly_two.value_eq] at hdiv

/-- It is a number if the whole is one. -/
theorem isNaN_half (t : Float) : (t / 2.0).isNaN = t.isNaN := by
  obtain hfinite | hfinite := Bool.eq_false_or_eq_true t.isFinite
  · rw [(isRounded_half hfinite).isNaN, isNaN_of_isFinite hfinite]
  · exact congrArg Float.Model.UnpackedFloat.isNaN (unpack_half hfinite)

/-- Half of infinity is infinity. -/
theorem value_half_of_infinite (ht : t.isNaN = false) (h : t.isFinite = false) :
    value (t / 2.0) = value t ∧ limit ≤ |value t| := by
  refine ⟨congrArg exactValue (unpack_half h), ?_⟩
  rw [← not_lt, ← isFinite_iff ht, h]
  exact Bool.false_ne_true

/-- The second is exactly half of the first. -/
def IsHalf (c d : Float) : Prop := Exactly c (2 * value d) ∧ d.isFinite = true

instance (c d : Float) : Decidable (IsHalf c d) := inferInstanceAs (Decidable (_ ∧ _))

variable {c d : Float}

/-- Halving respects the order, for an upper bound. The half of the bound is a double, so rounding
does not exceed it. -/
theorem half_le (hhalf : IsHalf c d) (h : t ≤ c) : t / 2.0 ≤ d := by
  obtain ⟨⟨hc, hdouble⟩, hd⟩ := hhalf
  obtain ⟨ht, hc'⟩ := isNaN_of_le h
  have hd' := isNaN_of_isFinite hd
  have hle := value_le_of_le h
  rw [le_iff_value ((isNaN_half t).trans ht) hd']
  obtain hfinite | hfinite := Bool.eq_false_or_eq_true t.isFinite
  · exact (isRounded_half hfinite).value_le hd' (by linarith)
  · -- an infinite number below a finite one is below all of them
    obtain ⟨hsame, habs⟩ := value_half_of_infinite ht hfinite
    obtain ⟨-, hbelow⟩ := abs_lt.1 ((isFinite_iff hc').1 hc)
    obtain ⟨habove, -⟩ := abs_lt.1 ((isFinite_iff hd').1 hd)
    rw [hsame]
    obtain hlow | hhigh := le_abs.1 habs
    · linarith
    · linarith

/-- Halving respects the order, for a lower bound. -/
theorem le_half (hhalf : IsHalf c d) (h : c ≤ t) : d ≤ t / 2.0 := by
  obtain ⟨⟨hc, hdouble⟩, hd⟩ := hhalf
  obtain ⟨hc', ht⟩ := isNaN_of_le h
  have hd' := isNaN_of_isFinite hd
  have hle := value_le_of_le h
  rw [le_iff_value hd' ((isNaN_half t).trans ht)]
  obtain hfinite | hfinite := Bool.eq_false_or_eq_true t.isFinite
  · exact (isRounded_half hfinite).le_value hd' (by linarith)
  · obtain ⟨hsame, habs⟩ := value_half_of_infinite ht hfinite
    obtain ⟨habove, -⟩ := abs_lt.1 ((isFinite_iff hc').1 hc)
    obtain ⟨-, hbelow⟩ := abs_lt.1 ((isFinite_iff hd').1 hd)
    rw [hsame]
    obtain hlow | hhigh := le_abs.1 habs
    · linarith
    · linarith

end Half

namespace Part

variable {material : String} {t : Float} {p : Vector3}

/-- A target that is no thicker than the world lies in it. -/
theorem world_contains_target (ht : ¬ 3000.0 < t) (h : (target.place material t).contains p = true) :
    (world.place material t).contains p = true := by
  obtain ⟨hx, hy, hz⟩ := contains_target_iff.1 h
  have hnumber : t.isNaN = false := (isNaN_half t).symm.trans (isNaN_of_le hz).2
  have hworld : IsHalf 3000.0 (3.0 * Unit.m / 2.0) := by with_unfolding_all decide
  have hle : t ≤ 3000.0 := le_of_not_lt hworld.1.isNaN hnumber ht
  have hedge : IsModerate 0.0 (10.0 * Unit.cm / 2.0) := by with_unfolding_all decide
  exact contains_world_iff.2 ⟨within_world hx hedge, within_world hy hedge,
    Double.le_trans hz (half_le hworld hle)⟩

/-- A thicker one reaches the first double outside. -/
theorem target_contains (ht : 3000.0 < t) :
    (target.place material t).contains ⟨0.0, 0.0, 1500.0000000000002⟩ = true := by
  have hadjacent : Adjacent 3000.0 3000.0000000000005 :=
    .of_parts (3000 * 2 ^ 41 + 1) (-41) (by with_unfolding_all decide)
  have hhalf : IsHalf 3000.0000000000005 1500.0000000000002 := by with_unfolding_all decide
  have hzero : (0.0 - 0.0 : Float).abs ≤ 10.0 * Unit.cm / 2.0 := by with_unfolding_all decide
  have hdistance : (1500.0000000000002 - 0.0 : Float).abs ≤ 1500.0000000000002 := by
    with_unfolding_all decide
  exact contains_target_iff.2 ⟨hzero, hzero,
    Double.le_trans hdistance (le_half hhalf (hadjacent.le_of_lt' ht))⟩

/-- The world does not contain that point. -/
theorem not_world_contains :
    (world.place material t).contains ⟨0.0, 0.0, 1500.0000000000002⟩ = false := by
  have houtside : ¬ (1500.0000000000002 - 0.0 : Float).abs ≤ 3.0 * Unit.m / 2.0 := by
    with_unfolding_all decide
  rw [← Bool.not_eq_true, contains_world_iff]
  exact fun h => houtside h.2.2

/-! ## Locating

The search gives a number, and `find?` gives the part that has it. What holds of the part holds of
the number, since numbers and parts belong together. -/

/-- The part that a point lies in. -/
def find? (material : String) (t : Float) (p : Vector3) : Option Part :=
  (inner.find? fun part => (part.place material t).contains p).or
    (if (world.place material t).contains p then some world else none)

/-- What is found contains the point. -/
theorem contains_of_find? {part : Part} (h : find? material t p = some part) :
    (part.place material t).contains p = true := by
  obtain h | ⟨-, h⟩ := Option.or_eq_some_iff.1 h
  · exact List.find?_some (p := fun part : Part => (part.place material t).contains p) h
  · split at h
    · next hworld =>
      obtain rfl := Option.some.inj h
      exact hworld
    · exact nomatch h

/-- Only the target can contain a point that the world does not. So a point outside is found exactly
if it is in the target. -/
theorem find?_eq_none_iff :
    find? material t p = none ↔
      (world.place material t).contains p = false ∧ (target.place material t).contains p = false := by
  have hnone : find? material t p = none ↔
      (∀ part ∈ inner, ¬ (part.place material t).contains p = true) ∧
        ¬ (world.place material t).contains p = true := by
    unfold find?
    rw [Option.or_eq_none_iff, List.find?_eq_none]
    simp
  rw [hnone, ← Bool.not_eq_true, ← Bool.not_eq_true]
  constructor
  · exact fun ⟨hinner, hworld⟩ => ⟨hworld, hinner target (by decide)⟩
  · refine fun ⟨hworld, htarget⟩ => ⟨fun part _ hpart => ?_, hworld⟩
    obtain rfl | hne := eq_or_ne part target
    · exact htarget hpart
    · exact hworld (world_contains hne hpart)

end Part

namespace Layout

variable {config : Config} {catalog : Catalog}

/-- The number that is found is that of the part that is found. -/
theorem locate_build (point : Vector3) :
    (build config catalog).1.locate point =
      (Part.find? (catalog.resolve config.targetMaterial).1.name config.targetThickness point).map
        Part.id := by
  let place := Part.place (catalog.resolve config.targetMaterial).1.name config.targetThickness
  have hinner : ((Part.inner.map place).find? fun v => v.contains point) =
      (Part.inner.find? fun part => (place part).contains point).map place := List.find?_map
  change (((Part.inner.map place).find? fun v => v.contains point).or
    (if (place .world).contains point then some (place .world) else none)).map Volume.id =
    ((Part.inner.find? fun part => (place part).contains point).or
      (if (place .world).contains point then some .world else none)).map Part.id
  rw [hinner]
  cases Part.inner.find? fun part => (place part).contains point with
  | some part => rfl
  | none => cases (place .world).contains point <;> rfl

/-- **What is found contains the point, and nothing is found just where neither the world nor the
target is. So nothing is found outside the world just if the target is no thicker than the world.** -/
theorem locate_respects_world (config : Config) (catalog : Catalog) :
    (∀ point id, (build config catalog).1.locate point = some id →
      ∃ v, (build config catalog).1.volume? id = some v ∧ v.contains point = true) ∧
    (∀ target,
      (build config catalog).1.volume? (build config catalog).1.sensitive.target = some target →
      ∀ point, (build config catalog).1.locate point = none ↔
        (build config catalog).1.world.contains point = false ∧ target.contains point = false) ∧
    ((∀ point, (build config catalog).1.locate point = none ↔
      (build config catalog).1.world.contains point = false) ↔ ¬ 3000.0 < config.targetThickness) := by
  have hnone : ∀ point, (build config catalog).1.locate point = none ↔ _ := fun point => by
    rw [locate_build, Option.map_eq_none_iff, Part.find?_eq_none_iff]
  refine ⟨?_, ?_, ?_, ?_⟩
  · intro point id hid
    rw [locate_build, Option.map_eq_some_iff] at hid
    obtain ⟨part, hpart, rfl⟩ := hid
    exact ⟨_, volume?_build part, Part.contains_of_find? hpart⟩
  · intro target htarget point
    obtain rfl := Option.some.inj ((volume?_build Part.target).symm.trans htarget)
    exact hnone point
  · intro hlaw ht
    have hlost := (hlaw ⟨0.0, 0.0, 1500.0000000000002⟩).2 Part.not_world_contains
    obtain ⟨-, houtside⟩ := (hnone _).1 hlost
    rw [Part.target_contains ht] at houtside
    exact nomatch houtside
  · intro ht point
    refine ⟨fun h => ((hnone point).1 h).1, fun hworld => (hnone point).2 ⟨hworld, ?_⟩⟩
    rw [← Bool.not_eq_true] at hworld ⊢
    exact fun htarget => hworld (Part.world_contains_target ht htarget)

end Layout

end Detector

end Telescope
