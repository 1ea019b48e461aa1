import Telescope.Proofs.SyntheticTracks

/-!
# Steps without names

The steps of a synthetic event name their volumes. Without the names they are placed by position, and
the part that is found first counts.

* `Detector.Part.eq_of_contains`: the parts in which a track leaves steps have no point in common;
* `Detector.Part.find?_of_contains`: so the first part found is the right one, but for points of the
  calorimeter that the target reaches;
* `exists_volumeIn` and `place_nameless_event`: a step loses its volume with its name just if it is one
  of these (`TraceStep.ReachedBy`), and an event is placed as before just if it has none of them;
* `place_nameless_iff` puts both together, with the thickness that makes sure there are none.

A trace may name the volume of a step or leave it to the position. The two ways should not differ
for a trace that the program has made itself. They do differ where two boxes overlap, and the boxes
were placed without looking at each other: a target of more than 1.7 m reaches into the calorimeter.

Which box comes first is a matter of the order of placing, so the target wins. The energy of such a
step is then lost to the event.
-/

namespace Telescope

open Double

/-! ## Boxes that are apart

Two boxes with a point in common have centres that are closer than their edges allow. For the parts
of fixed size this is a comparison of constants, and for the target one with the thickness. -/

/-- Boxes with a coordinate in common are near each other. -/
theorem Within.abs_center_sub_lt {center half bound center' half' bound' x : Float} {b b' : ℚ}
    (h : Within center half x) (h' : Within center' half' x) (hhalf : half.isFinite = true)
    (hhalf' : half'.isFinite = true) (hbound : Exactly bound b) (hbound' : Exactly bound' b')
    (hlt : value half < b) (hlt' : value half' < b') : |value center - value center'| < b + b' := by
  have hnear := abs_lt.1 (h.abs_sub_lt hhalf hbound hlt)
  have hnear' := abs_lt.1 (h'.abs_sub_lt hhalf' hbound' hlt')
  exact abs_lt.2 ⟨by linarith [hnear.2, hnear'.1], by linarith [hnear.1, hnear'.2]⟩

namespace Detector.Part

variable {material : String} {t : Float} {p : Vector3}

/-- A bound on how far the parts of fixed size reach along the beam. -/
def reach : Part → Float
  | .calorimeter => 200.0
  | _ => 1.0

/-- Only the target has an extent that depends on the thickness. -/
theorem extent_eq {part : Part} (h : part ∈ Synthetic.recording) (t : Float) :
    part.extent t = part.extent 0.0 := by
  cases part with
  | target => exact absurd h (by decide)
  | _ => rfl

/-- A bound on each half edge that is a round number, so that sums of two of them are easy to
compare. -/
theorem half_lt_reach : ∀ part ∈ Synthetic.recording, ((part.extent 0.0).z / 2.0).isFinite = true ∧
    Exactly part.reach (value part.reach) ∧
    value ((part.extent 0.0).z / 2.0) < value part.reach := by
  with_unfolding_all decide

/-- Any two of these parts stand further apart than the bounds reach. -/
theorem reach_add_reach_le : ∀ a ∈ Synthetic.recording, ∀ b ∈ Synthetic.recording, a ≠ b →
    value a.reach + value b.reach ≤ |value a.center.z - value b.center.z| := by
  with_unfolding_all decide

/-- The parts in which a track leaves steps have no point in common. -/
theorem eq_of_contains {a b : Part} (ha : a ∈ Synthetic.recording) (hb : b ∈ Synthetic.recording)
    (h : (a.place material t).contains p = true) (h' : (b.place material t).contains p = true) :
    a = b := by
  obtain ⟨hhalf, hreach, hlt⟩ := half_lt_reach a ha
  obtain ⟨hhalf', hreach', hlt'⟩ := half_lt_reach b hb
  have hz : Within a.center.z ((a.extent 0.0).z / 2.0) p.z := by
    rw [← extent_eq ha t]
    exact (Volume.contains_iff.1 h).2.2
  have hz' : Within b.center.z ((b.extent 0.0).z / 2.0) p.z := by
    rw [← extent_eq hb t]
    exact (Volume.contains_iff.1 h').2.2
  have hnear := hz.abs_center_sub_lt hz' hhalf hhalf' hreach hreach' hlt hlt'
  by_contra hne
  exact absurd (reach_add_reach_le a ha b hb hne) hnear.not_ge

/-- The first of the inner parts that contains a point is found. -/
theorem find?_of_before {part : Part} (before after : List Part)
    (hinner : inner = before ++ part :: after) (h : (part.place material t).contains p = true)
    (hbefore : ∀ a ∈ before, ¬ (a.place material t).contains p = true) :
    find? material t p = some part := by
  have hfound : (inner.find? fun part => (part.place material t).contains p) = some part := by
    rw [List.find?_eq_some_iff_append]
    exact ⟨h, before, after, hinner, fun a ha => by simpa using hbefore a ha⟩
  rw [find?, hfound, Option.some_or]

/-- **The part that is found for a point of the trackers or the calorimeter** is that part, unless the
target is found before the calorimeter. -/
theorem find?_of_contains {part : Part} (hpart : part ∈ Synthetic.recording)
    (h : (part.place material t).contains p = true) :
    find? material t p = some (if part = .calorimeter ∧ (target.place material t).contains p = true
      then .target else part) := by
  have hother : ∀ a ∈ Synthetic.recording, a ≠ part → ¬ (a.place material t).contains p = true :=
    fun a ha hne ha' => hne (eq_of_contains ha hpart ha' h)
  cases part with
  | world => exact absurd hpart (by decide)
  | target => exact absurd hpart (by decide)
  | tracker plane =>
    rw [if_neg fun hcalorimeter => nomatch hcalorimeter.1]
    have hsplit : ∀ plane : Fin 4,
        inner = inner.take plane ++ .tracker plane :: inner.drop (plane + 1) ∧
        ∀ a ∈ inner.take plane, a ∈ Synthetic.recording ∧ a ≠ .tracker plane := by decide
    obtain ⟨hinner, hbefore⟩ := hsplit plane
    exact find?_of_before _ _ hinner h fun a ha => hother a (hbefore a ha).1 (hbefore a ha).2
  | calorimeter =>
    have htrackers : ∀ a ∈ inner.take 4, a ∈ Synthetic.recording ∧ a ≠ .calorimeter := by decide
    by_cases htarget : (target.place material t).contains p = true
    · rw [if_pos ⟨rfl, htarget⟩]
      exact find?_of_before (inner.take 4) _ rfl htarget
        fun a ha => hother a (htrackers a ha).1 (htrackers a ha).2
    · rw [if_neg fun hboth => htarget hboth.2]
      refine find?_of_before (inner.take 4 ++ [target]) _ rfl h fun a ha => ?_
      obtain ha | ha := List.mem_append.1 ha
      · exact hother a (htrackers a ha).1 (htrackers a ha).2
      · obtain rfl := List.mem_singleton.1 ha
        exact htarget

/-- The target and the calorimeter are apart if the target is thin enough. The bound is exact: it is
where the two faces meet. -/
theorem not_contains_target (ht : t < 1700.0) (h : (calorimeter.place material t).contains p = true) :
    ¬ (target.place material t).contains p = true := by
  intro htarget
  have hadjacent : Adjacent 1699.9999999999998 1700.0 :=
    .of_parts (1700 * 2 ^ 42) (-42) (by with_unfolding_all decide)
  have hhalf : IsHalf 1699.9999999999998 849.9999999999999 := by with_unfolding_all decide
  have hnear : Within 0.0 849.9999999999999 p.z :=
    Double.le_trans (contains_target_iff.1 htarget).2.2 (half_le hhalf (hadjacent.le_of_lt ht))
  have hfar := (contains_calorimeter_iff.1 h).2.2
  have hdepth : Exactly (30.0 * Unit.cm / 2.0) 150 := by with_unfolding_all decide
  obtain ⟨hz, hcenter⟩ := hfar.isFinite hdepth.isFinite
  -- the last point of such a target is still more than half of the calorimeter away from its centre
  have hface : Exactly (849.9999999999999 - 100.0 * Unit.cm)
      (value 849.9999999999999 - value (100.0 * Unit.cm)) := by with_unfolding_all decide
  have hbelow : value 849.9999999999999 - value (100.0 * Unit.cm) < -150 := by
    with_unfolding_all decide
  have hle := le_of_abs_le ((Within.zero_iff hz ⟨hhalf.2, rfl⟩).1 hnear)
  have hdistance := (isRounded_sub hz hcenter).value_le hface.isNaN (by linarith [hface.value_eq])
  have hlow := (abs_le.1 hfar.abs_value_le).1
  rw [hdepth.value_eq] at hlow
  linarith [hface.value_eq]

end Detector.Part

/-! ## Steps without names

An event is placed by placing its steps in order, and both ways succeed for every step; so the
events agree just if all steps do. -/

namespace TraceStep

/-- The step without the name of its volume. -/
def nameless (s : TraceStep) : TraceStep := { s with volume := none }

/-- The step is in the calorimeter, at a point that the target contains too. -/
def ReachedBy (target : Volume) (s : TraceStep) : Prop :=
  s.volume = some Detector.Part.calorimeter.name ∧ target.contains s.position = true

instance (target : Volume) (s : TraceStep) : Decidable (s.ReachedBy target) :=
  inferInstanceAs (Decidable (_ ∧ _))

variable {layout : Detector.Layout} {s : TraceStep} {id id' : VolumeId}

/-- Without its name a step is placed as before just if it is in the same volume. -/
theorem place_nameless_eq_iff (h : s.volumeIn layout = .ok id)
    (h' : s.nameless.volumeIn layout = .ok id') :
    s.nameless.place layout = s.place layout ↔ id' = id := by
  rw [place_of_volumeIn h, place_of_volumeIn h']
  refine ⟨fun heq => congrArg Step.volume (Except.ok.inj heq), ?_⟩
  rintro rfl
  rfl

end TraceStep

/-- The event without the names of volumes. -/
def TraceEvent.nameless (e : TraceEvent) : TraceEvent :=
  { e with steps := e.steps.map TraceStep.nameless }

/-- What succeeds on every element succeeds on the list, and gives such results. -/
theorem exists_mapM_forall₂ {α β γ ε : Type} {f : β → Except ε γ} {R : α → γ → Prop} {xs : List α}
    {ys : List β} (h : List.Forall₂ (fun x y => ∃ z, f y = .ok z ∧ R x z) xs ys) :
    ∃ zs, ys.mapM f = .ok zs ∧ List.Forall₂ R xs zs := by
  induction h with
  | nil => exact ⟨[], rfl, .nil⟩
  | cons head _ ih =>
    obtain ⟨z, hz, hr⟩ := head
    obtain ⟨zs, hzs, hall⟩ := ih
    refine ⟨z :: zs, ?_, .cons hr hall⟩
    rw [List.mapM_cons, hz, hzs]
    rfl

/-- In particular it succeeds. -/
theorem exists_mapM_eq_ok {α β ε : Type} {f : α → Except ε β} {xs : List α}
    (h : ∀ x ∈ xs, ∃ y, f x = .ok y) : ∃ ys, xs.mapM f = .ok ys := by
  have hall : List.Forall₂ (fun x y => ∃ z, f y = .ok z ∧ True) xs xs :=
    List.forall₂_same.2 fun x hx => (h x hx).imp fun y hy => ⟨hy, trivial⟩
  obtain ⟨ys, hys, -⟩ := exists_mapM_forall₂ hall
  exact ⟨ys, hys⟩

/-- Two ways to treat the elements of a list in order, both of which succeed, agree just if they agree
on every element. -/
theorem mapM_eq_mapM_iff {α β ε : Type} {f g : α → Except ε β} {xs : List α}
    (hf : ∀ x ∈ xs, ∃ y, f x = .ok y) (hg : ∀ x ∈ xs, ∃ y, g x = .ok y) :
    xs.mapM f = xs.mapM g ↔ ∀ x ∈ xs, f x = g x := by
  induction xs with
  | nil => exact ⟨fun _ => nofun, fun _ => rfl⟩
  | cons x xs ih =>
    obtain ⟨⟨y, hy⟩, hfrest⟩ := List.forall_mem_cons.1 hf
    obtain ⟨⟨z, hz⟩, hgrest⟩ := List.forall_mem_cons.1 hg
    obtain ⟨ys, hys⟩ := exists_mapM_eq_ok hfrest
    obtain ⟨zs, hzs⟩ := exists_mapM_eq_ok hgrest
    rw [List.forall_mem_cons, ← ih hfrest hgrest, List.mapM_cons, List.mapM_cons, hy, hz, hys, hzs]
    change Except.ok (y :: ys) = Except.ok (z :: zs) ↔ _
    simp

section Built

open Detector

variable {detector : Detector.Config} {catalog : Catalog} {config : Synthetic} {gun : Gun}
  {trace : Trace} {target : Volume} {e : TraceEvent} {s : TraceStep}

/-- What becomes of one step: its volume, which is not the target, and the one that is found without
the name. -/
theorem exists_volumeIn (htrace : config.trace (Layout.build detector catalog).1 gun = .ok trace)
    (htarget : (Layout.build detector catalog).1.volumeNamed? Part.target.name = some target)
    (he : e ∈ trace) (hs : s ∈ e.steps) :
    ∃ id, s.volumeIn (Layout.build detector catalog).1 = .ok id ∧ id ≠ target.id ∧
      s.nameless.volumeIn (Layout.build detector catalog).1 =
        .ok (if s.ReachedBy target then target.id else id) := by
  obtain rfl := Option.some.inj ((Layout.volumeNamed?_build Part.target).symm.trans htarget)
  obtain ⟨part, hpart, hname, hcontains⟩ := Synthetic.exists_part_of_mem htrace he hs
  have hunique : ∀ part ∈ Synthetic.recording, part.id ≠ Part.target.id ∧
      (part.name = Part.calorimeter.name ↔ part = .calorimeter) := by decide
  obtain ⟨hne, hcalorimeter⟩ := hunique part hpart
  have hsame : s.ReachedBy (Part.target.place (catalog.resolve detector.targetMaterial).1.name
      detector.targetThickness) ↔
      part = .calorimeter ∧ (Part.target.place _ _).contains s.position = true :=
    and_congr_left' (by rw [hname, Option.some_inj, hcalorimeter])
  refine ⟨part.id, ?_, hne, ?_⟩
  · rw [TraceStep.volumeIn, hname]
    dsimp only
    rw [Layout.volumeNamed?_build]
    rfl
  · rw [TraceStep.volumeIn]
    dsimp only [TraceStep.nameless]
    rw [Layout.locate_build, Part.find?_of_contains hpart hcontains, if_congr hsame rfl rfl]
    exact congrArg Except.ok (apply_ite Part.id _ _ _)

/-- An event is placed as before if the target reaches none of its steps. Its steps are placed one
by one, so each of them decides. -/
theorem place_nameless_event (htrace : config.trace (Layout.build detector catalog).1 gun = .ok trace)
    (htarget : (Layout.build detector catalog).1.volumeNamed? Part.target.name = some target)
    (he : e ∈ trace) :
    e.nameless.place (Layout.build detector catalog).1 = e.place (Layout.build detector catalog).1 ↔
      ∀ s ∈ e.steps, ¬ s.ReachedBy target := by
  have hvolume := fun s hs => exists_volumeIn (s := s) htrace htarget he hs
  have hmap : e.nameless.place (Layout.build detector catalog).1 =
      e.steps.mapM fun s => s.nameless.place (Layout.build detector catalog).1 := List.mapM_map
  rw [hmap, TraceEvent.place, mapM_eq_mapM_iff]
  · refine forall₂_congr fun s hs => ?_
    obtain ⟨id, hid, hne, hid'⟩ := hvolume s hs
    rw [TraceStep.place_nameless_eq_iff hid hid', ite_eq_right_iff]
    exact ⟨fun h hreached => hne (h hreached).symm, fun h hreached => absurd hreached h⟩
  · intro s hs
    obtain ⟨id, -, -, hid⟩ := hvolume s hs
    exact ⟨_, TraceStep.place_of_volumeIn hid⟩
  · intro s hs
    obtain ⟨id, hid, -⟩ := hvolume s hs
    exact ⟨_, TraceStep.place_of_volumeIn hid⟩

/-- A thin target reaches no step. -/
theorem not_reachedBy (htrace : config.trace (Layout.build detector catalog).1 gun = .ok trace)
    (htarget : (Layout.build detector catalog).1.volumeNamed? Part.target.name = some target)
    (hthin : detector.targetThickness < 1700.0) (he : e ∈ trace) (hs : s ∈ e.steps) :
    ¬ s.ReachedBy target := by
  rintro ⟨hname, hreached⟩
  obtain rfl := Option.some.inj ((Layout.volumeNamed?_build Part.target).symm.trans htarget)
  obtain ⟨part, hpart, hname', hcontains⟩ := Synthetic.exists_part_of_mem htrace he hs
  have hunique : ∀ part ∈ Synthetic.recording,
      part.name = Part.calorimeter.name → part = .calorimeter := by decide
  obtain rfl := hunique part hpart (Option.some.inj (hname'.symm.trans hname))
  exact Part.not_contains_target hthin hcontains hreached

/-- **Without the names, the steps of the calorimeter that lie in the target go to the target, and all
others where the names say.** So an event is placed as before just if there are none of these, and
always if the target is thin enough. -/
theorem place_nameless_iff (htrace : config.trace (Layout.build detector catalog).1 gun = .ok trace)
    (htarget : (Layout.build detector catalog).1.volumeNamed? Part.target.name = some target) :
    (∀ e ∈ trace, ∀ s ∈ e.steps, ∃ id, s.volumeIn (Layout.build detector catalog).1 = .ok id ∧
      s.nameless.volumeIn (Layout.build detector catalog).1 =
        .ok (if s.ReachedBy target then target.id else id)) ∧
    (∀ e ∈ trace, e.nameless.place (Layout.build detector catalog).1 =
        e.place (Layout.build detector catalog).1 ↔ ∀ s ∈ e.steps, ¬ s.ReachedBy target) ∧
    (detector.targetThickness < 1700.0 → ∀ e ∈ trace,
      e.nameless.place (Layout.build detector catalog).1 =
        e.place (Layout.build detector catalog).1) := by
  refine ⟨fun e he s hs => ?_, fun e he => place_nameless_event htrace htarget he,
    fun hthin e he => ?_⟩
  · obtain ⟨id, hid, -, hid'⟩ := exists_volumeIn htrace htarget he hs
    exact ⟨id, hid, hid'⟩
  · exact (place_nameless_event htrace htarget he).2 fun s hs =>
      not_reachedBy htrace htarget hthin he hs

/-- One event without kinks. -/
def straightConfig : Synthetic := { Synthetic.default with events := 1, kink := 0.0 }

/-- The detector with a target of two metres, which reaches into the calorimeter. -/
def thickDetector : Detector.Config := { Config.default with targetThickness := 2000.0 }

/-- If the tangent of zero is zero, the straight track enters the calorimeter along the beam axis, and it
leaves a step there before the target ends. -/
theorem exists_reachedBy (htan : Float.tan 0.0 = 0.0)
    (htrace : straightConfig.trace (Layout.build thickDetector .standard).1 .default = .ok trace)
    (htarget : (Layout.build thickDetector .standard).1.volumeNamed? Part.target.name = some target)
    (he : e ∈ trace) : ∃ s ∈ e.steps, s.ReachedBy target := by
  obtain rfl := Option.some.inj ((Layout.volumeNamed?_build Part.target).symm.trans htarget)
  obtain ⟨scene, track, seen, hscene, hrecords⟩ := Synthetic.records_of_mem htrace he
  rw [Synthetic.sceneOf_build] at hscene
  obtain rfl := Option.some.inj hscene
  have hcalorimeter : ((straightConfig.caloSteps
      (straightConfig.trackOf (Gun.default.fire 0) 0.0 0.0 0.0)
      (Part.calorimeter.place (Catalog.standard.resolve thickDetector.targetMaterial).1.name 2000.0)).any
      fun s => s.ReachedBy
        (Part.target.place (Catalog.standard.resolve thickDetector.targetMaterial).1.name 2000.0)) =
      true := by
    simp only [Synthetic.trackOf, htan]
    decide +kernel
  obtain ⟨s, hs, hreached⟩ := List.any_eq_true.1 hcalorimeter
  rw [hrecords.steps, hrecords.straight (by with_unfolding_all decide)]
  exact ⟨s, List.mem_append_right _ hs, of_decide_eq_true hreached⟩

/-- A target of two metres takes steps of the calorimeter, and with them the event, if only the tangent of
zero is zero: what the functions of angles return is not defined here. -/
theorem place_nameless_iff_two_metres :
    ∃ trace layout target, layout = (Layout.build thickDetector .standard).1 ∧
      layout.volumeNamed? Part.target.name = some target ∧
      straightConfig.trace layout .default = .ok trace ∧ trace.length = 1 ∧
      (Float.tan 0.0 = 0.0 → ∀ e ∈ trace, (∃ s ∈ e.steps, s.ReachedBy target) ∧
        e.nameless.place layout ≠ e.place layout) := by
  have hexists : ∃ trace, straightConfig.trace (Layout.build thickDetector .standard).1 .default =
      .ok trace ∧ trace.length = 1 :=
    Synthetic.exists_trace _ Synthetic.sceneOf_build (Synthetic.fire_default_forward _)
      (by with_unfolding_all decide) (by with_unfolding_all decide)
  obtain ⟨trace, htrace, hlength⟩ := hexists
  have htarget : (Layout.build thickDetector .standard).1.volumeNamed? Part.target.name = some _ :=
    Layout.volumeNamed?_build Part.target
  refine ⟨trace, _, _, rfl, htarget, htrace, hlength, fun htan e he => ?_⟩
  obtain ⟨s, hs, hreached⟩ := exists_reachedBy htan htrace htarget he
  refine ⟨⟨s, hs, hreached⟩, fun hsame => ?_⟩
  exact ((place_nameless_iff htrace htarget).2.1 e he).1 hsame s hs hreached

end Built

end Telescope
