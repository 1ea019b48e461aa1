import Telescope.Proofs.SyntheticTracks

/-!
# Crossings behind the gun

A synthetic track is a pair of whole lines, not of rays: a plane is crossed where the line meets it,
also if that is behind the point where the particle starts.

* `Synthetic.Records.tracker_iff` and `Synthetic.Records.calorimeter_iff`: where a track leaves steps.
  The place of the gun has no part in it but through the line;
* `Synthetic.contains_crossing`: the line of a gun that fires along the beam meets all planes, however
  far down the beam it stands;
* `Synthetic.steps_on_lines` puts both together.

The documentation of the source wants steps where the track actually crosses a plane. A track starts
at the gun, so a plane behind the gun is not crossed; but `Line.crossing` does not ask for the sign
of the way, and the events show it. The theorem says where the steps are, and in particular that
moving the gun down the beam takes none of them away.
-/

namespace Telescope

open Double

namespace Synthetic

/-- The line of a track meets a plane, before or behind the gun. -/
def Track.Meets (track : Track) (plane : Volume) : Prop :=
  plane.contains ((track.at plane.center.z).1.crossing plane.center.z) = true

/-- The line behind the target meets some slice of the calorimeter, before or behind the gun. -/
def Track.MeetsSlice (track : Track) (calorimeter : Volume) : Prop :=
  ∃ slice < slices, calorimeter.contains (track.outgoing.crossing
    (calorimeter.center.z - calorimeter.halfExtent.z + sliceDepth calorimeter slice)) = true

/-- Some step of the event is in the volume with this name. -/
def HasStepIn (e : TraceEvent) (name : String) : Prop := ∃ s ∈ e.steps, s.volume = some name

variable {config : Synthetic} {track : Track}

/-! ## Where the steps are

A step is recorded just where the line meets the box. The number of steps in the calorimeter is the
number of slices that are met, and one is enough for the name to appear. -/

/-- A step is left just if the crossing is in the box. -/
theorem exists_stepIn_iff {volume : Volume} {line : Line} {momentum z edep : Float} :
    (∃ step, stepIn volume line momentum z edep = some step) ↔
      volume.contains (line.crossing z) = true := by
  unfold stepIn
  dsimp only
  split
  · next h => exact ⟨fun _ => h, fun _ => ⟨_, rfl⟩⟩
  · next h => exact ⟨nofun, fun hcontains => absurd hcontains h⟩

section Built

open Detector

variable {material : String} {thickness : Float} {primary : Vertex} {seen : List Volume}
  {e : TraceEvent}

/-- A plane that has seen the track has a step just if the line meets it. Which side of the gun the
plane is on does not come into it. -/
theorem Records.tracker_iff (h : Records config (sceneAt material thickness primary) track seen e)
    (plane : Fin 4) :
    HasStepIn e (Part.tracker plane).name ↔
      (Part.tracker plane).place material thickness ∈ seen ∧
        track.Meets ((Part.tracker plane).place material thickness) := by
  constructor
  · rintro ⟨s, hs, hname⟩
    rw [h.steps, List.mem_append, List.mem_filterMap] at hs
    obtain ⟨volume, hvolume, hstep⟩ | hs := hs
    · obtain ⟨other, -, rfl⟩ := List.mem_map.1 (h.sublist.subset hvolume)
      have hsame : ∀ a b : Fin 4, (Part.tracker a).name = (Part.tracker b).name → a = b := by decide
      obtain rfl := hsame other plane
        (Option.some.inj ((contains_of_stepIn hstep).2.symm.trans hname))
      exact ⟨hvolume, exists_stepIn_iff.1 ⟨s, hstep⟩⟩
    · obtain ⟨slice, -, hstep⟩ := List.mem_filterMap.1 hs
      have hother : ∀ a : Fin 4, Part.calorimeter.name ≠ (Part.tracker a).name := by decide
      exact absurd (Option.some.inj ((contains_of_stepIn hstep).2.symm.trans hname)) (hother plane)
  · rintro ⟨hseen, hmeets⟩
    obtain ⟨s, hstep⟩ := exists_stepIn_iff.2 hmeets
    refine ⟨s, ?_, (contains_of_stepIn hstep).2⟩
    rw [h.steps]
    exact List.mem_append_left _ (List.mem_filterMap.2 ⟨_, hseen, hstep⟩)

/-- The calorimeter has a step just if the line behind the target meets a slice. The deposits are
those of the slices that it meets. -/
theorem Records.calorimeter_iff (h : Records config (sceneAt material thickness primary) track seen e) :
    HasStepIn e Part.calorimeter.name ↔
      track.MeetsSlice (Part.calorimeter.place material thickness) := by
  constructor
  · rintro ⟨s, hs, hname⟩
    rw [h.steps, List.mem_append, List.mem_filterMap] at hs
    obtain ⟨volume, hvolume, hstep⟩ | hs := hs
    · obtain ⟨plane, -, rfl⟩ := List.mem_map.1 (h.sublist.subset hvolume)
      have hother : ∀ a : Fin 4, (Part.tracker a).name ≠ Part.calorimeter.name := by decide
      exact absurd (Option.some.inj ((contains_of_stepIn hstep).2.symm.trans hname)) (hother plane)
    · obtain ⟨slice, hslice, hstep⟩ := List.mem_filterMap.1 hs
      exact ⟨slice, List.mem_range.1 hslice, exists_stepIn_iff.1 ⟨s, hstep⟩⟩
  · rintro ⟨slice, hslice, hcontains⟩
    obtain ⟨s, hstep⟩ := exists_stepIn_iff.2 hcontains
    refine ⟨s, ?_, (contains_of_stepIn hstep).2⟩
    rw [h.steps]
    exact List.mem_append_right _ (List.mem_filterMap.2 ⟨slice, List.mem_range.2 hslice, hstep⟩)

/-! ## A gun along the beam

For a gun that fires along the axis everything can be computed: across the beam nothing is added,
and along the beam the way to the plane is added to the place of the gun. Both are rounded, and far
away the rounding is worth more than the thickness of a plane; up to `1e12` mm it is a sixteenth of
a millimetre at most. -/

section Axis

variable {x z c : Float}

/-- Nothing is added across the beam. -/
theorem exactly_zero_mul (hx : x.isFinite = true) : Exactly (0.0 * x) 0 := by
  have hmul := isRounded_mul exactly_zero.isFinite hx
  rw [exactly_zero.value_eq, zero_mul] at hmul
  exact hmul.exact exactly_zero

/-- Along the beam the direction is one. -/
theorem exactly_one_mul (hx : x.isFinite = true) : Exactly (1.0 * x) (value x) := by
  have hmul := isRounded_mul exactly_one.isFinite hx
  rw [exactly_one.value_eq, one_mul] at hmul
  exact hmul.exact ⟨hx, rfl⟩

/-- Dividing by it changes nothing. -/
theorem exactly_div_one (hx : x.isFinite = true) : Exactly (x / 1.0) (value x) := by
  have hdiv := isRounded_div hx exactly_one.isFinite (exactly_one.value_eq ▸ one_ne_zero)
  rw [exactly_one.value_eq, div_one] at hdiv
  exact hdiv.exact ⟨hx, rfl⟩

/-- The distance up to which the error is small enough. -/
theorem exactly_far : Exactly 1.0e12 (10 ^ 12) := by with_unfolding_all decide

/-- The way from the gun to a plane is exact up to a fraction of a millimetre. -/
theorem way_to_plane (hz : z.abs ≤ 1.0e12) (hc : c.isFinite = true) (hplane : |value c| ≤ 500) :
    ((c - z) / 1.0).isFinite = true ∧
      |value ((c - z) / 1.0) - (value c - value z)| ≤ 2 ^ (-13 : ℤ) := by
  obtain ⟨hz', hbound⟩ := abs_value_le_of_abs_le exactly_far hz
  have hdistance : |value c - value z| ≤ 2 * 10 ^ 12 := by
    obtain ⟨hlow, hhigh⟩ := abs_le.1 hbound
    obtain ⟨hlow', hhigh'⟩ := abs_le.1 hplane
    exact abs_le.2 ⟨by linarith, by linarith⟩
  have htwice : Exactly 2.0e12 (2 * 10 ^ 12) := by with_unfolding_all decide
  have hsub := isRounded_sub hc hz'
  have hdiv := exactly_div_one (hsub.isFinite htwice hdistance)
  have hsize : |value c - value z| < 2 ^ (53 + -12 : ℤ) := hdistance.trans_lt (by norm_num)
  refine ⟨hdiv.isFinite, ?_⟩
  rw [hdiv.value_eq]
  exact (hsub.abs_sub_le (by norm_num) (by norm_num) hsize).trans_eq (by norm_num)

/-- Along the beam the plane is reached, up to a fraction of a millimetre. -/
theorem abs_crossing_sub_le (hz : z.abs ≤ 1.0e12) (hc : c.isFinite = true)
    (hplane : |value c| ≤ 500) :
    (z + 1.0 * ((c - z) / 1.0)).isFinite = true ∧
      |value (z + 1.0 * ((c - z) / 1.0)) - value c| ≤ 1 / 16 := by
  obtain ⟨hway, herror⟩ := way_to_plane hz hc hplane
  have hmul := exactly_one_mul hway
  have hadd := isRounded_add (isFinite_of_abs_le hz exactly_far.isFinite) hmul.isFinite
  rw [hmul.value_eq] at hadd
  obtain ⟨hlow, hhigh⟩ := abs_le.1 (herror.trans (by norm_num : (2 : ℚ) ^ (-13 : ℤ) ≤ 1 / 32))
  have hnear : |value z + value ((c - z) / 1.0)| ≤ 501 := by
    obtain ⟨hlow', hhigh'⟩ := abs_le.1 hplane
    exact abs_le.2 ⟨by linarith, by linarith⟩
  constructor
  · have hend : Exactly 501.0 501 := by with_unfolding_all decide
    exact hadd.isFinite hend hnear
  · have hsize := hnear.trans_lt (by norm_num : (501 : ℚ) < 2 ^ (53 + -44 : ℤ))
    have hrounding := hadd.abs_sub_le (by norm_num) (by norm_num) hsize
    obtain ⟨hdown, hup⟩ := abs_le.1 (hrounding.trans (by norm_num : _ ≤ (1 / 32 : ℚ)))
    exact abs_le.2 ⟨by linarith, by linarith⟩

/-- A coordinate that is off by less than half the edge is in the box. -/
theorem within_of_abs_sub_le {half bound : Float} (hx : x.isFinite = true) (hc : c.isFinite = true)
    (hle : bound ≤ half) (h : |value x - value c| ≤ value bound) : Within c half x := by
  have hsub := isRounded_sub hx hc
  obtain ⟨hbound, -⟩ := isNaN_of_le hle
  refine Double.le_trans ?_ hle
  rw [le_iff_value ((isNaN_abs _).trans hsub.isNaN) hbound, value_abs, hsub.value_eq, abs_rounded,
    ← rounded_value hbound]
  exact rounded_mono h

/-- So the crossing is in the plane along the beam. -/
theorem within_along (hz : z.abs ≤ 1.0e12) (hc : c.isFinite = true) (hplane : |value c| ≤ 500) :
    Within c (300.0 * Unit.um / 2.0) (z + 1.0 * ((c - z) / 1.0)) := by
  obtain ⟨hfinite, hnear⟩ := abs_crossing_sub_le hz hc hplane
  have hsixteenth : Exactly 0.0625 (1 / 16) := by with_unfolding_all decide
  have hthick : (0.0625 : Float) ≤ 300.0 * Unit.um / 2.0 := by with_unfolding_all decide
  exact within_of_abs_sub_le hfinite hc hthick (hsixteenth.value_eq.symm ▸ hnear)

/-- Across the beam the gun's place is kept. -/
theorem within_across {s : Float} (hx : x.abs ≤ 20.0) (hs : s.isFinite = true) :
    Within 0.0 (4.0 * Unit.cm / 2.0) (x + 0.0 * s) := by
  have hbound : Exactly 20.0 20 := by with_unfolding_all decide
  have hhalf : Exactly (4.0 * Unit.cm / 2.0) 20 := by with_unfolding_all decide
  obtain ⟨hx', hle⟩ := abs_value_le_of_abs_le hbound hx
  have hmul := exactly_zero_mul hs
  have hadd := isRounded_add hx' hmul.isFinite
  rw [hmul.value_eq, add_zero] at hadd
  have hsame := hadd.exact ⟨hx', rfl⟩
  rwa [Within.zero_iff hsame.isFinite hhalf, hsame.value_eq]

end Axis

/-- **The line of a gun that fires along the beam meets all planes, wherever the gun stands.** -/
theorem contains_crossing {x y z : Float} (plane : Fin 4) (hx : x.abs ≤ 20.0) (hy : y.abs ≤ 20.0)
    (hz : z.abs ≤ 1.0e12) :
    ((Part.tracker plane).place material thickness).contains
      ((⟨⟨x, y, z⟩, Vector3.beamAxis⟩ : Line).crossing (Part.trackerZ plane)) = true := by
  have hplane : ∀ plane : Fin 4, (Part.trackerZ plane).isFinite = true ∧
      |value (Part.trackerZ plane)| ≤ 500 := by with_unfolding_all decide
  obtain ⟨hfinite, hnear⟩ := hplane plane
  have hway := (way_to_plane hz hfinite hnear).1
  exact Part.contains_tracker_iff.2
    ⟨within_across hx hway, within_across hy hway, within_along hz hfinite hnear⟩

/-- The particles of the default gun fly along the beam. -/
theorem direction_default :
    (Gun.default.fire 0).momentum.divide (Gun.default.fire 0).momentum.norm = Vector3.beamAxis := by
  change Vector3.mk _ _ _ = Vector3.mk _ _ _
  rw [Vector3.mk.injEq]
  decide +kernel

/-- The track of the default gun meets the two planes before the target, whatever the kinks, since
these come behind. -/
theorem meets_of_default {x y z kinkX kinkY : Float} {plane : Fin 4} (hplane : plane < 2)
    (hx : x.abs ≤ 20.0) (hy : y.abs ≤ 20.0) (hz : z.abs ≤ 1.0e12) :
    (config.trackOf ({ Gun.default with position := ⟨x, y, z⟩ }.fire 0) 0.0 kinkX kinkY).Meets
      ((Part.tracker plane).place material thickness) := by
  have hbefore : ∀ plane : Fin 4, plane < 2 → Part.trackerZ plane < 0.0 := by
    with_unfolding_all decide
  obtain ⟨track, htrack⟩ : ∃ track, config.trackOf
    ({ Gun.default with position := ⟨x, y, z⟩ }.fire 0) 0.0 kinkX kinkY = track := ⟨_, rfl⟩
  have hincoming : track.incoming = ⟨⟨x, y, z⟩, Vector3.beamAxis⟩ := by
    rw [← htrack]
    exact congrArg (Line.mk ⟨x, y, z⟩) direction_default
  have hat : track.at (Part.trackerZ plane) = (track.incoming, track.momentumIn) := by
    rw [← htrack]
    exact if_pos (hbefore plane hplane)
  rw [htrack]
  change ((Part.tracker plane).place material thickness).contains
    ((track.at (Part.trackerZ plane)).1.crossing (Part.trackerZ plane)) = true
  rw [hat, hincoming]
  exact contains_crossing plane hx hy hz

section

variable {detector : Detector.Config} {catalog : Catalog} {gun : Gun} {trace : Trace}

/-- **A synthetic event has steps where the lines of its track go, to both sides of the gun.** Where
the gun stands on a line does not matter: the default gun, moved anywhere along the beam, leaves steps
in the first two planes. -/
theorem steps_on_lines (htrace : config.trace (Layout.build detector catalog).1 gun = .ok trace) :
    (∀ e ∈ trace, ∃ kinkX kinkY,
      (∀ plane volume, (Layout.build detector catalog).1.volume? (Part.tracker plane).id = some volume →
        (HasStepIn e volume.name → (config.trackOf (gun.fire 0) 0.0 kinkX kinkY).Meets volume) ∧
        (1.0 ≤ config.efficiency → (config.trackOf (gun.fire 0) 0.0 kinkX kinkY).Meets volume →
          HasStepIn e volume.name)) ∧
      ∀ volume, (Layout.build detector catalog).1.volume? Part.calorimeter.id = some volume →
        (HasStepIn e volume.name ↔
          (config.trackOf (gun.fire 0) 0.0 kinkX kinkY).MeetsSlice volume)) ∧
    ∀ x y z : Float, gun = { Gun.default with position := ⟨x, y, z⟩ } → x.abs ≤ 20.0 → y.abs ≤ 20.0 →
      z.abs ≤ 1.0e12 → 1.0 ≤ config.efficiency → ∀ e ∈ trace, ∀ plane : Fin 4, plane < 2 →
        HasStepIn e (Part.tracker plane).name := by
  constructor
  · intro e he
    obtain ⟨kinkX, kinkY, seen, h⟩ := exists_records_of_mem htrace he
    refine ⟨kinkX, kinkY, fun plane volume hvolume => ?_, fun volume hvolume => ?_⟩
    · obtain rfl := Option.some.inj ((Layout.volume?_build _).symm.trans hvolume)
      exact ⟨fun hstep => ((h.tracker_iff plane).1 hstep).2, fun hperfect hmeets =>
        (h.tracker_iff plane).2 ⟨h.tracker_mem hperfect plane, hmeets⟩⟩
    · obtain rfl := Option.some.inj ((Layout.volume?_build _).symm.trans hvolume)
      exact h.calorimeter_iff
  · rintro x y z rfl hx hy hz hperfect e he plane hplane
    obtain ⟨kinkX, kinkY, seen, h⟩ := exists_records_of_mem htrace he
    exact (h.tracker_iff plane).2
      ⟨h.tracker_mem hperfect plane, meets_of_default hplane hx hy hz⟩

/-- A gun behind all planes of the detector leaves steps in the first two. -/
theorem steps_on_lines_behind :
    ∃ trace, Synthetic.trace { Synthetic.default with events := 1, kink := 0.0 }
        (Layout.build Config.default Catalog.standard).1
        { Gun.default with position := ⟨0.0, 0.0, 600.0⟩ } = .ok trace ∧
      trace.length = 1 ∧ ∀ e ∈ trace, HasStepIn e "Tracker1" ∧ HasStepIn e "Tracker2" := by
  have hexists : ∃ trace, Synthetic.trace { Synthetic.default with events := 1, kink := 0.0 }
      (Layout.build Config.default Catalog.standard).1
      { Gun.default with position := ⟨0.0, 0.0, 600.0⟩ } = .ok trace ∧ trace.length = 1 :=
    exists_trace _ sceneOf_build (fire_default_forward _) (by with_unfolding_all decide)
      (by with_unfolding_all decide)
  obtain ⟨trace, htrace, hlength⟩ := hexists
  refine ⟨trace, htrace, hlength, fun e he => ?_⟩
  have hsteps := (steps_on_lines htrace).2 0.0 0.0 600.0 rfl (by with_unfolding_all decide)
    (by with_unfolding_all decide) (by with_unfolding_all decide) (by with_unfolding_all decide) e he
  exact ⟨hsteps 0 (by decide), hsteps 1 (by decide)⟩

end

end Built

end Synthetic

end Telescope
