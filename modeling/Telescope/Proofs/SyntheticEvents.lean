import Telescope.Proofs.NamelessSteps
import Telescope.Proofs.ReplayRefinement
import Telescope.Proofs.SyntheticRuns

/-!
# Synthetic events in the detector

Whatever stream the random numbers come from, a synthetic event fits the detector that it is made for.

* `Synthetic.Fits`: a step is in the box of the part that it names, and goes to that part; what an event
  records of a track is like that (`Synthetic.Records.fits`);
* `Synthetic.Draws.number`: events are numbered in the order in which they are drawn;
* `Synthetic.fits_of_traceFrom`: so a synthetic trace is complete, and any number of workers replay it.
  `Synthetic.trace` is the one from the start of the stream of its seed (`Synthetic.trace_eq_traceFrom`).

A synthetic trace is the input that the program makes for itself, so it should never be refused by
the rest of the program. That it is not needs the whole way from a draw to a row: the part that a
step names exists, it contains the step, the search by name finds it, the route of its number is
that of the part, and a worker that gets only placed steps comes to an end.
-/

namespace Telescope

open Detector

/-! ## Placing the steps

`Fits` is the interface between making an event and replaying it. It speaks of the layout alone, not
of the scene or the draws that the event was made from. -/

namespace Synthetic

variable {config : Synthetic} {scene : Scene} {track : Track} {g g' : Generator} {e : TraceEvent}
  {detector : Detector.Config} {catalog : Catalog} {gun : Gun} {events : Trace}

/-- A step in a part is placed there. -/
theorem place_of_leftIn {part : Part} {s : TraceStep} {material : String} {thickness : Float}
    (h : LeftIn material thickness part s) :
    s.place (Layout.build detector catalog).1 = .ok ⟨part.id, s.position, s.momentum, s.edep⟩ :=
  (TraceStep.place_build_eq_ok_iff h.1).2 ⟨part, rfl, rfl⟩

/-- An event fits a detector if its steps are in some of the tracker planes, in their order, and then
in the calorimeter. -/
structure Fits (layout : Layout) (planes : List (Fin 4)) (deposits : Nat) (e : TraceEvent) :
    Prop where
  /-- there is one step for a plane at most, and the planes come in their order -/
  order : planes.Pairwise (· < ·)
  /-- there are five steps in the calorimeter at most -/
  few : deposits ≤ 5
  /-- every step names its part, and lies in the box of the volume with that name -/
  inside : List.Forall₂ (fun part s => s.volume = some part.name ∧
    ∃ v, layout.volumeNamed? part.name = some v ∧ v.contains s.position = true)
    (partsOf planes deposits) e.steps
  /-- all steps are placed, and go to their parts -/
  placed : ∃ steps, e.place layout = .ok steps ∧
    List.Forall₂ (fun part s => layout.sensitive.route s.volume = part.route)
      (partsOf planes deposits) steps

/-- What an event records of a track fits the detector. -/
theorem Records.fits {primary : Vertex} {seen : List Volume}
    (h : Records config (sceneAt (catalog.resolve detector.targetMaterial).1.name
      detector.targetThickness primary) track seen e) :
    ∃ planes deposits, Fits (Layout.build detector catalog).1 planes deposits e := by
  obtain ⟨planes, deposits, hplanes, hdeposits, hsteps⟩ := h.exists_parts
  refine ⟨planes, deposits, (List.pairwise_lt_finRange 4).sublist hplanes, hdeposits, ?_, ?_⟩
  · exact hsteps.imp fun part s hs => ⟨hs.1, _, Layout.volumeNamed?_build part, hs.2⟩
  · rw [Layout.sensitive_build]
    exact exists_mapM_forall₂ (hsteps.imp fun part s hs =>
      ⟨_, place_of_leftIn hs, Part.route_id part⟩)

/-! ## Numbers

Events carry the number of their place, counted from zero. Numbers are 64 bits wide, and a trace is
never longer than that. -/

/-- Events are numbered in the order in which they are drawn. -/
theorem Draws.number {first : Nat} (h : Draws config scene first g events g')
    {i : Nat} (hi : events[i]? = some e) : e.event = UInt64.ofNat (first + i) := by
  induction h generalizing i with
  | nil => exact nomatch hi
  | cons head _ ih =>
    cases i with
    | zero =>
      obtain rfl := Option.some.inj hi
      exact (event_eq_ok head).1
    | succ i =>
      rw [ih hi]
      congr 1
      omega

/-! ## Traces

The prefix lemmas of `Telescope.Proofs.SyntheticRuns` give the events of a trace as a run of draws;
what holds of each event then holds of all. -/

/-- All events of a trace are drawn one after the other. -/
theorem draws_of_traceFrom
    (h : config.traceFrom (Layout.build detector catalog).1 gun g = .ok events) :
    events.length = (if (gun.fire 0).momentum.z <= 0.0 then 0 else config.events.toNat) ∧
      ∃ last, Draws config (sceneAt (catalog.resolve detector.targetMaterial).1.name
        detector.targetThickness (gun.fire 0)) 0 g events last := by
  obtain ⟨rfl, hbackward⟩ | ⟨scene, hscene, hforward, hevents⟩ := traceFrom_eq_ok_iff.1 h
  · exact ⟨(if_pos (hbackward _ sceneOf_build)).symm, g, .nil⟩
  · obtain rfl := Option.some.inj (sceneOf_build.symm.trans hscene)
    obtain ⟨hlength, hdraws⟩ := eventsFrom_eq_ok_iff.1 hevents
    exact ⟨hlength.trans (if_neg hforward).symm, hdraws⟩

/-- **A synthetic trace is complete and can be replayed**, whatever the detector, the gun and the
stream of random numbers, if only these numbers can be drawn:

* it is empty if the gun does not fire along the beam, and has all events otherwise, numbered from zero
  on;
* every event fits the detector;
* any number of workers replay it, and count all of its events. -/
theorem fits_of_traceFrom
    (h : config.traceFrom (Layout.build detector catalog).1 gun g = .ok events) :
    ((gun.fire 0).momentum.z <= 0.0 → events = []) ∧
    (¬ (gun.fire 0).momentum.z <= 0.0 → events.length = config.events.toNat) ∧
    (∀ i (e : TraceEvent), events[i]? = some e → e.event.toNat = i) ∧
    (∀ e ∈ events, ∃ planes deposits, Fits (Layout.build detector catalog).1 planes deposits e) ∧
    ∀ workers runner files, ∃ result,
      (Replay.execute workers (Layout.build detector catalog).1 runner events
        (fun _ => MemorySink.fresh) files).2 = .ok result ∧
      result.sinks.length = max workers 1 ∧ result.summary.events.toNat = events.length := by
  obtain ⟨hlength, last, hdraws⟩ := draws_of_traceFrom h
  -- events are numbered in 64 bits, and there are never more than a count asks for
  have hsize : events.length < UInt64.size := by
    have hlt := config.events.toNat_lt
    rw [hlength]
    split
    · decide
    · exact hlt
  have hfits : ∀ e ∈ events, ∃ planes deposits,
      Fits (Layout.build detector catalog).1 planes deposits e := by
    intro e he
    obtain ⟨track, seen, hrecords⟩ :=
      records_of_mem_eventsFrom (eventsFrom_eq_ok_iff.2 ⟨rfl, last, hdraws⟩) he
    exact hrecords.fits
  refine ⟨fun hbackward => ?_, fun hforward => ?_, fun i e hi => ?_, hfits,
    fun workers runner files => ?_⟩
  · rw [if_pos hbackward] at hlength
    exact List.eq_nil_of_length_eq_zero hlength
  · rwa [if_neg hforward] at hlength
  · have hlt := (List.getElem?_eq_some_iff.1 hi).1
    rw [hdraws.number hi, Nat.zero_add, UInt64.toNat_ofNat_of_lt' (hlt.trans hsize)]
  · have hplaced : ∀ e ∈ events, ∃ steps, e.place (Layout.build detector catalog).1 = .ok steps := by
      intro e he
      obtain ⟨planes, deposits, hfit⟩ := hfits e he
      obtain ⟨steps, hsteps, -⟩ := hfit.placed
      exact ⟨steps, hsteps⟩
    obtain ⟨result, hresult, hsinks, hevents⟩ :=
      Replay.exists_result hplaced workers runner files
    refine ⟨result, hresult, hsinks, ?_⟩
    rw [hevents, UInt64.toNat_ofNat_of_lt' hsize]

/-- The default trace in the default detector, for three workers. -/
theorem fits_of_default :
    ∃ events, Synthetic.default.trace (Layout.build .default .standard).1 .default = .ok events ∧
      events.length = 100 ∧
      (∀ e ∈ events, ∃ planes deposits, Fits (Layout.build .default .standard).1 planes deposits e) ∧
      ∃ result, (Replay.execute 3 (Layout.build .default .standard).1 .default events
        (fun _ => MemorySink.fresh) .empty).2 = .ok result ∧ result.summary.events.toNat = 100 := by
  have hexists : ∃ events, Synthetic.default.trace (Layout.build .default .standard).1 .default =
      .ok events ∧ events.length = 100 :=
    (drawable_of_default rfl rfl).exists_trace sceneOf_build (fire_default_forward _)
  obtain ⟨events, hevents, hlength⟩ := hexists
  obtain ⟨-, -, -, hfits, hreplay⟩ := fits_of_traceFrom (trace_eq_traceFrom .. ▸ hevents)
  obtain ⟨result, hresult, -, hcount⟩ := hreplay 3 .default .empty
  exact ⟨events, hevents, hlength, hfits, result, hresult, hcount.trans hlength⟩

end Synthetic

end Telescope
