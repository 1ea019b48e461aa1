import Telescope.Proofs.FirstDraws
import Telescope.Proofs.Locating
import Telescope.Trace.Synthetic

/-!
# The steps of synthetic events

What is in a synthetic event, whatever the random numbers were:

* `Synthetic.Records`: an event consists of the crossings of one track with the planes that have seen
  it, and of those with the slices of the calorimeter;
* `Synthetic.traceFrom`: the trace from any place of any stream, and when it is empty
  (`Synthetic.traceFrom_eq_ok_iff`);
* `Synthetic.records_of_mem`: every event of a trace is of this kind, by induction over the events;
* `Synthetic.Records.exists_parts`: so its steps go through the planes and the calorimeter in their order,
  and each of them names its part and lies in its box;
* `Synthetic.Drawable.exists_trace`: the events can all be made if their random numbers can be drawn.

The events of a trace are made by drawing from one stream, so an event is known only together with
all draws before it. What can be said of it all the same is said by `Records`: the random numbers
decide on the two kinks and on the planes that see the track, and on nothing else. Everything that
later modules prove of synthetic events, they prove from this structure.
-/

namespace Telescope

open Double

namespace Synthetic

variable {config : Synthetic} {scene : Scene} {track : Track} {g g' : Generator}

/-- A draw and what follows it succeed if both do, and the second from the first one's value. -/
theorem bind_eq_ok {α β : Type} {x : Except SyntheticError α} {f : α → Except SyntheticError β}
    {b : β} : x >>= f = .ok b ↔ ∃ a, x = .ok a ∧ f a = .ok b := by
  cases x with
  | error cause => exact ⟨nofun, nofun⟩
  | ok a => exact ⟨fun h => ⟨a, rfl, h⟩, fun ⟨_, ha, h⟩ => Except.ok.inj ha ▸ h⟩

/-! ## One event

The generator is threaded through the draws of an event by a monad of errors and states. One bind
lemma opens it, step by step. -/

/-- Without kinks nothing is drawn for them. -/
theorem kinkAngle_of_straight (h : ¬ config.kink * 1.0e-3 > 0.0) :
    config.kinkAngle g = .ok (0.0, g) :=
  if_neg h

/-- Planes with an efficiency of one, or more, are certain to see a crossing. -/
theorem chance?_of_perfect (h : 1.0 ≤ config.efficiency) :
    g.chance? (clamp config.efficiency 0.0 1.0) = some (true, g) := by
  obtain ⟨hone, hnumber⟩ := isNaN_of_le h
  have hnonneg : ¬ config.efficiency < 0.0 := by
    have hle := value_le_of_le h
    rw [exactly_one.value_eq] at hle
    rw [lt_iff_value hnumber exactly_zero.isNaN, exactly_zero.value_eq]
    linarith
  have hcertain : (clamp config.efficiency 0.0 1.0 == 1.0) = true := by
    rw [clamp, if_neg hnonneg]
    split
    · with_unfolding_all decide
    · next hle => exact beq_of_le_of_le (le_of_not_lt hone hnumber hle) h
  rw [Generator.chance?, if_pos hcertain]

/-- The steps in the planes are the crossings with those that see the track. The planes are asked in
their order, and each takes one decision from the stream. -/
theorem planeSteps_eq_ok {planes : List Volume} {steps : List TraceStep}
    (h : config.planeSteps track planes g = .ok (steps, g')) :
    ∃ seen, seen.Sublist planes ∧ (1.0 ≤ config.efficiency → seen = planes) ∧
      steps = seen.filterMap (planeStep track) := by
  induction planes generalizing g g' steps with
  | nil =>
    obtain ⟨rfl, rfl⟩ := Prod.mk.inj (Except.ok.inj h)
    exact ⟨[], .slnil, fun _ => rfl, rfl⟩
  | cons plane rest ih =>
    rw [planeSteps] at h
    cases hchance : g.chance? (clamp config.efficiency 0.0 1.0) with
    | none =>
      rw [hchance] at h
      exact nomatch h
    | some decision =>
      obtain ⟨sees, next⟩ := decision
      rw [hchance] at h
      obtain ⟨⟨others, last⟩, hrest, h⟩ := bind_eq_ok.1 h
      obtain ⟨seen, hseen, hperfect, rfl⟩ := ih hrest
      cases sees with
      | true =>
        obtain ⟨rfl, rfl⟩ := Prod.mk.inj (Except.ok.inj h)
        refine ⟨plane :: seen, hseen.cons_cons plane, fun hone => by rw [hperfect hone], ?_⟩
        rw [List.filterMap_cons]
        cases planeStep track plane <;> rfl
      | false =>
        obtain ⟨rfl, rfl⟩ := Prod.mk.inj (Except.ok.inj h)
        refine ⟨seen, hseen.cons plane, fun hone => ?_, rfl⟩
        rw [chance?_of_perfect hone] at hchance
        exact nomatch hchance

/-- An event is what the planes and the calorimeter have seen of a track. -/
structure Records (config : Synthetic) (scene : Scene) (track : Track) (seen : List Volume)
    (e : TraceEvent) : Prop where
  /-- the track belongs to the primary particle and two kinks -/
  kinks : ∃ kinkX kinkY, track = config.trackOf scene.primary scene.targetZ kinkX kinkY
  /-- of no size if there are to be none -/
  straight : ¬ config.kink * 1.0e-3 > 0.0 →
    track = config.trackOf scene.primary scene.targetZ 0.0 0.0
  /-- some of the planes have seen it -/
  sublist : seen.Sublist scene.planes
  /-- perfect planes have all seen it -/
  perfect : 1.0 ≤ config.efficiency → seen = scene.planes
  /-- the steps are its crossings with these planes, and those with the slices -/
  steps : e.steps = seen.filterMap (planeStep track) ++ config.caloSteps track scene.calorimeter

/-- An event has the number that it was given, and records a track. -/
theorem event_eq_ok {number : UInt64} {e : TraceEvent}
    (h : config.event scene number g = .ok (e, g')) :
    e.event = number ∧ ∃ track seen, Records config scene track seen e := by
  unfold event at h
  obtain ⟨⟨kinkX, _⟩, hkinkX, h⟩ := bind_eq_ok.1 h
  obtain ⟨⟨kinkY, _⟩, hkinkY, h⟩ := bind_eq_ok.1 h
  obtain ⟨⟨steps, _⟩, hsteps, h⟩ := bind_eq_ok.1 h
  obtain ⟨rfl, -⟩ := Prod.mk.inj (Except.ok.inj h)
  obtain ⟨seen, hseen, hperfect, rfl⟩ := planeSteps_eq_ok hsteps
  have hstraight : ¬ config.kink * 1.0e-3 > 0.0 → kinkX = 0.0 ∧ kinkY = 0.0 := by
    intro hnone
    rw [kinkAngle_of_straight hnone] at hkinkX hkinkY
    exact ⟨(Prod.mk.inj (Except.ok.inj hkinkX)).1.symm, (Prod.mk.inj (Except.ok.inj hkinkY)).1.symm⟩
  refine ⟨rfl, _, seen, ⟨kinkX, kinkY, rfl⟩, fun hnone => ?_, hseen, hperfect, rfl⟩
  rw [(hstraight hnone).1, (hstraight hnone).2]

/-! ## All events

The induction is on the number of events that are still to be made, for every number of the first
and every state of the stream. -/

/-- Wherever the stream stands, every event that is made records a track. -/
theorem records_of_mem_eventsFrom {first count : Nat} {trace : Trace}
    (h : config.eventsFrom scene first count g = .ok trace) {e : TraceEvent} (he : e ∈ trace) :
    ∃ track seen, Records config scene track seen e := by
  induction count generalizing first g trace with
  | zero =>
    obtain rfl := Except.ok.inj h
    exact nomatch he
  | succ count ih =>
    obtain ⟨⟨head, next⟩, hhead, h⟩ := bind_eq_ok.1 h
    obtain ⟨tail, htail, h⟩ := bind_eq_ok.1 h
    obtain rfl := Except.ok.inj h
    obtain rfl | he := List.mem_cons.1 he
    · exact (event_eq_ok hhead).2
    · exact ih htail he

/-- The synthetic trace whose random numbers come from this place of a stream. -/
def traceFrom (config : Synthetic) (layout : Detector.Layout) (gun : Gun) (g : Generator) :
    Except SyntheticError Trace :=
  match sceneOf layout gun with
  | none => .ok []
  | some scene =>
    if scene.primary.momentum.z <= 0.0 then .ok []
    else config.eventsFrom scene 0 config.events.toNat g

/-- A trace is the one from the start of the stream of its seed. -/
theorem trace_eq_traceFrom (config : Synthetic) (layout : Detector.Layout) (gun : Gun) :
    config.trace layout gun = config.traceFrom layout gun (.ofSeed config.seed) := rfl

variable {layout : Detector.Layout} {gun : Gun} {trace : Trace} {e : TraceEvent}

/-- A trace is empty, or has all events of a scene whose gun fires along the beam. -/
theorem traceFrom_eq_ok_iff : config.traceFrom layout gun g = .ok trace ↔
    (trace = [] ∧ ∀ scene, sceneOf layout gun = some scene → scene.primary.momentum.z <= 0.0) ∨
      ∃ scene, sceneOf layout gun = some scene ∧ ¬ scene.primary.momentum.z <= 0.0 ∧
        config.eventsFrom scene 0 config.events.toNat g = .ok trace := by
  unfold traceFrom
  cases sceneOf layout gun with
  | none => simp [eq_comm]
  | some scene =>
    by_cases hbackward : scene.primary.momentum.z <= 0.0
    · simp [hbackward, eq_comm]
    · simp [hbackward]

/-- **Every event of a trace records a track.** -/
theorem records_of_mem (h : config.trace layout gun = .ok trace) (he : e ∈ trace) :
    ∃ scene track seen, sceneOf layout gun = some scene ∧ Records config scene track seen e := by
  rw [trace_eq_traceFrom] at h
  obtain ⟨rfl, -⟩ | ⟨scene, hscene, -, hevents⟩ := traceFrom_eq_ok_iff.1 h
  · exact nomatch he
  · obtain ⟨track, seen, hrecords⟩ := records_of_mem_eventsFrom hevents he
    exact ⟨scene, track, seen, hscene, hrecords⟩

/-! ## Events that can be made

Drawing can fail, for an interval that no draw ends in or an efficiency that is no number. A trace
exists whenever neither is the case for the settings, and that does not depend on the stream. -/

/-- Whatever is drawn for an event can be drawn, from any place of any stream. -/
structure Drawable (config : Synthetic) : Prop where
  /-- a kink -/
  kink : ∀ g, ∃ drawn, config.kinkAngle g = .ok drawn
  /-- the decision whether a plane sees a crossing -/
  seen : ∀ g, ∃ decision, Generator.chance? (clamp config.efficiency 0.0 1.0) g = some decision

/-- Without kinks, and with perfect planes, nothing is drawn. -/
theorem drawable_of_straight (hstraight : ¬ config.kink * 1.0e-3 > 0.0)
    (hperfect : 1.0 ≤ config.efficiency) : config.Drawable :=
  ⟨fun g => ⟨(0.0, g), kinkAngle_of_straight hstraight⟩, fun g => ⟨(true, g), chance?_of_perfect hperfect⟩⟩

/-- A kink can be drawn from an interval of moderate width. -/
theorem drawable_of_spreads (hspreads : Generator.Spreads (config.kink * 1.0e-3))
    (hlow : 0.0 <= clamp config.efficiency 0.0 1.0) (hhigh : clamp config.efficiency 0.0 1.0 <= 1.0) :
    config.Drawable := by
  refine ⟨fun g => ?_, Generator.exists_chance? hlow hhigh⟩
  obtain ⟨drawn, hdrawn⟩ := hspreads.exists_uniform? g
  unfold kinkAngle
  dsimp only
  rw [hdrawn]
  split
  · exact ⟨drawn, rfl⟩
  · exact ⟨(0.0, g), rfl⟩

/-- So it can with the usual kinks and planes. -/
theorem drawable_of_default (hkink : config.kink = default.kink)
    (hefficiency : config.efficiency = default.efficiency) : config.Drawable := by
  refine drawable_of_spreads ?_ ?_ ?_
  · rw [hkink]
    with_unfolding_all decide
  · rw [hefficiency]
    with_unfolding_all decide
  · rw [hefficiency]
    with_unfolding_all decide

namespace Drawable

/-- The steps in the planes can be made. -/
theorem exists_planeSteps (h : config.Drawable) (track : Track) (planes : List Volume)
    (g : Generator) : ∃ drawn, config.planeSteps track planes g = .ok drawn := by
  induction planes generalizing g with
  | nil => exact ⟨([], g), rfl⟩
  | cons plane rest ih =>
    obtain ⟨⟨sees, next⟩, hsees⟩ := h.seen g
    obtain ⟨⟨steps, last⟩, hsteps⟩ := ih next
    rw [planeSteps, hsees]
    cases sees with
    | true => exact ⟨_, bind_eq_ok.2 ⟨_, hsteps, rfl⟩⟩
    | false => exact ⟨_, bind_eq_ok.2 ⟨_, hsteps, rfl⟩⟩

/-- An event can be made, from any place of the stream. -/
theorem exists_event (h : config.Drawable) (scene : Scene) (number : UInt64) (g : Generator) :
    ∃ drawn, config.event scene number g = .ok drawn := by
  obtain ⟨⟨kinkX, g₁⟩, hkinkX⟩ := h.kink g
  obtain ⟨⟨kinkY, g₂⟩, hkinkY⟩ := h.kink g₁
  obtain ⟨⟨steps, g₃⟩, hsteps⟩ :=
    h.exists_planeSteps (config.trackOf scene.primary scene.targetZ kinkX kinkY) scene.planes g₂
  exact ⟨_, bind_eq_ok.2 ⟨_, hkinkX, bind_eq_ok.2 ⟨_, hkinkY, bind_eq_ok.2 ⟨_, hsteps, rfl⟩⟩⟩⟩

/-- So can any number of events. -/
theorem exists_eventsFrom (h : config.Drawable) (scene : Scene) (first count : Nat)
    (g : Generator) :
    ∃ trace, config.eventsFrom scene first count g = .ok trace ∧ trace.length = count := by
  induction count generalizing first g with
  | zero => exact ⟨[], rfl, rfl⟩
  | succ count ih =>
    obtain ⟨⟨e, next⟩, hevent⟩ := h.exists_event scene (UInt64.ofNat first) g
    obtain ⟨rest, hrest, hlength⟩ := ih (first + 1) next
    exact ⟨e :: rest, bind_eq_ok.2 ⟨_, hevent, bind_eq_ok.2 ⟨_, hrest, rfl⟩⟩,
      congrArg (· + 1) hlength⟩

/-- **All events can be made then.** -/
theorem exists_trace (h : config.Drawable) (hscene : sceneOf layout gun = some scene)
    (hforward : ¬ scene.primary.momentum.z <= 0.0) :
    ∃ trace, config.trace layout gun = .ok trace ∧ trace.length = config.events.toNat := by
  obtain ⟨trace, htrace, hlength⟩ :=
    h.exists_eventsFrom scene 0 config.events.toNat (Generator.ofSeed config.seed)
  rw [trace_eq_traceFrom]
  exact ⟨trace, traceFrom_eq_ok_iff.2 (.inr ⟨scene, hscene, hforward, htrace⟩), hlength⟩

end Drawable

/-- Without kinks and with perfect planes nothing is drawn, and the trace exists. -/
theorem exists_trace (config : Synthetic) (hscene : sceneOf layout gun = some scene)
    (hforward : ¬ scene.primary.momentum.z <= 0.0)
    (hstraight : ¬ config.kink * 1.0e-3 > 0.0) (hperfect : 1.0 ≤ config.efficiency) :
    ∃ trace, config.trace layout gun = .ok trace ∧ trace.length = config.events.toNat :=
  (drawable_of_straight hstraight hperfect).exists_trace hscene hforward

/-! ## The detector as it is built

For a detector that the program builds, the volumes of a scene are parts at their places. The steps
of an event then belong to parts, in the order in which a particle passes them. -/

section Built

open Detector

variable {detector : Detector.Config} {catalog : Catalog}

/-- The parts in which a synthetic track leaves steps. -/
def recording : List Part := (List.finRange 4).map .tracker ++ [.calorimeter]

/-- The scene of the detector, with its target of this material and thickness. -/
def sceneAt (material : String) (thickness : Float) (primary : Vertex) : Scene where
  planes := (List.finRange 4).map fun plane => (Part.tracker plane).place material thickness
  calorimeter := Part.calorimeter.place material thickness
  targetZ := 0.0
  primary := primary

/-- The scene of a detector that is built. -/
theorem sceneOf_build :
    sceneOf (Layout.build detector catalog).1 gun = some (sceneAt
      (catalog.resolve detector.targetMaterial).1.name detector.targetThickness (gun.fire 0)) := by
  rfl

/-- Every event of its traces records a track of the gun's particle. -/
theorem exists_records_of_mem (h : config.trace (Layout.build detector catalog).1 gun = .ok trace)
    (he : e ∈ trace) :
    ∃ kinkX kinkY seen, Records config (sceneAt (catalog.resolve detector.targetMaterial).1.name
      detector.targetThickness (gun.fire 0)) (config.trackOf (gun.fire 0) 0.0 kinkX kinkY) seen e := by
  obtain ⟨scene, track, seen, hscene, hrecords⟩ := records_of_mem h he
  rw [sceneOf_build] at hscene
  obtain rfl := Option.some.inj hscene
  obtain ⟨kinkX, kinkY, rfl⟩ := hrecords.kinks
  exact ⟨kinkX, kinkY, seen, hrecords⟩

/-- Perfect planes have all seen the track. -/
theorem Records.tracker_mem {material : String} {thickness : Float} {primary : Vertex}
    {seen : List Volume} (h : Records config (sceneAt material thickness primary) track seen e)
    (hperfect : 1.0 ≤ config.efficiency) (plane : Fin 4) :
    (Part.tracker plane).place material thickness ∈ seen := by
  rw [h.perfect hperfect]
  exact List.mem_map.2 ⟨plane, List.mem_finRange plane, rfl⟩

/-- The default gun fires down the beam, wherever it stands. -/
theorem fire_default_forward (position : Vector3) :
    ¬ ({ Gun.default with position }.fire 0).momentum.z <= 0.0 := by
  change ¬ (Gun.default.fire 0).momentum.z <= 0.0
  decide +kernel

/-- The step names this part and lies in its box. -/
def LeftIn (material : String) (thickness : Float) (part : Part) (s : TraceStep) : Prop :=
  s.volume = some part.name ∧ (part.place material thickness).contains s.position = true

/-- Some of the planes, and the calorimeter as often as it has a step. -/
def partsOf (planes : List (Fin 4)) (deposits : Nat) : List Part :=
  planes.map .tracker ++ List.replicate deposits .calorimeter

/-- All of these parts record. -/
theorem mem_recording_of_mem_partsOf {planes : List (Fin 4)} {deposits : Nat} {part : Part}
    (h : part ∈ partsOf planes deposits) : part ∈ recording := by
  have hrecording : ∀ plane : Fin 4, Part.tracker plane ∈ recording := by decide
  obtain hplane | hdeposit := List.mem_append.1 h
  · obtain ⟨plane, -, rfl⟩ := List.mem_map.1 hplane
    exact hrecording plane
  · obtain rfl := List.eq_of_mem_replicate hdeposit
    decide

/-- What passes a filter belongs to some of the elements, in their order. -/
theorem exists_sublist_filterMap {α β : Type} {f : α → Option β} {R : α → β → Prop}
    (h : ∀ x y, f x = some y → R x y) (xs : List α) :
    ∃ kept, kept.Sublist xs ∧ List.Forall₂ R kept (xs.filterMap f) := by
  induction xs with
  | nil => exact ⟨[], .slnil, .nil⟩
  | cons x xs ih =>
    obtain ⟨kept, hkept, hall⟩ := ih
    rw [List.filterMap_cons]
    cases hx : f x with
    | none => exact ⟨kept, hkept.cons x, hall⟩
    | some y => exact ⟨x :: kept, hkept.cons_cons x, .cons (h x y hx) hall⟩

/-- A step that is left is left in its part. -/
theorem leftIn_of_stepIn {material : String} {thickness : Float} {part : Part} {line : Line}
    {momentum z edep : Float} {s : TraceStep}
    (h : stepIn (part.place material thickness) line momentum z edep = some s) :
    LeftIn material thickness part s :=
  (contains_of_stepIn h).symm

/-- The steps in the calorimeter are at most as many as its slices, and all of them are in it. -/
theorem exists_replicate_caloSteps (config : Synthetic) (track : Track) (part : Part)
    (material : String) (thickness : Float) :
    ∃ deposits ≤ slices, List.Forall₂ (LeftIn material thickness) (List.replicate deposits part)
      (config.caloSteps track (part.place material thickness)) := by
  have hslices : ∃ kept : List Nat, kept.Sublist (List.range slices) ∧
      List.Forall₂ (fun _ => LeftIn material thickness part) kept
        (config.caloSteps track (part.place material thickness)) := by
    unfold caloSteps
    exact exists_sublist_filterMap (fun _ _ => leftIn_of_stepIn) _
  obtain ⟨kept, hkept, hall⟩ := hslices
  refine ⟨kept.length, hkept.length_le.trans_eq List.length_range, ?_⟩
  rw [← List.map_const']
  exact List.forall₂_map_left_iff.2 hall

/-- **The steps of an event go through the planes in their order, and then through the
calorimeter.** Each of them names its part and lies in its box. -/
theorem Records.exists_parts {material : String} {thickness : Float} {primary : Vertex}
    {seen : List Volume} (h : Records config (sceneAt material thickness primary) track seen e) :
    ∃ planes deposits, planes.Sublist (List.finRange 4) ∧ deposits ≤ slices ∧
      List.Forall₂ (LeftIn material thickness) (partsOf planes deposits) e.steps := by
  obtain ⟨able, hable, rfl⟩ := List.sublist_map_iff.1 h.sublist
  obtain ⟨planes, hplanes, htrackers⟩ := exists_sublist_filterMap
    (f := fun plane => planeStep track ((Part.tracker plane).place material thickness))
    (R := fun plane => LeftIn material thickness (.tracker plane))
    (fun _ _ => leftIn_of_stepIn) able
  obtain ⟨deposits, hle, hcalorimeter⟩ :=
    exists_replicate_caloSteps config track Part.calorimeter material thickness
  refine ⟨planes, deposits, hplanes.trans hable, hle, ?_⟩
  rw [h.steps, List.filterMap_map]
  exact List.rel_append (List.forall₂_map_left_iff.2 htrackers) hcalorimeter

/-- Every step names a part and lies in its box. -/
theorem exists_part_of_mem (h : config.trace (Layout.build detector catalog).1 gun = .ok trace)
    (he : e ∈ trace) {s : TraceStep} (hs : s ∈ e.steps) :
    ∃ part ∈ recording, s.volume = some part.name ∧
      (part.place (catalog.resolve detector.targetMaterial).1.name
        detector.targetThickness).contains s.position = true := by
  obtain ⟨kinkX, kinkY, seen, hrecords⟩ := exists_records_of_mem h he
  obtain ⟨planes, deposits, -, -, hsteps⟩ := hrecords.exists_parts
  obtain ⟨hlength, hpairs⟩ := List.forall₂_iff_zip.1 hsteps
  rw [← List.map_snd_zip hlength.ge] at hs
  obtain ⟨⟨part, s⟩, hpair, rfl⟩ := List.mem_map.1 hs
  exact ⟨part, mem_recording_of_mem_partsOf (List.of_mem_zip hpair).1, hpairs hpair⟩

end Built

end Synthetic

end Telescope
