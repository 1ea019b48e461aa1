import Telescope.Proofs.SyntheticTracks

/-!
# Longer synthetic traces

What an event draws depends on where the events before it have left the stream, and on nothing that
comes after it.

* `Synthetic.Draws`: events drawn one after the other, from one place of the stream to another;
* `Synthetic.eventsFrom_eq_ok_iff`: so many events are made if they are drawn like that;
* `Synthetic.draws_append_iff`: such a run can be cut anywhere, and be continued where it ended;
* `Synthetic.trace_withEvents`: so a longer trace starts with the shorter one.

The program draws from one stream, and an event may draw more or fewer numbers than the one before
it: a plane of full efficiency draws none, and a kink may be drawn twice. So a prefix of a trace is
not a matter of counting draws. What carries the argument is that the state of the stream is handed
from event to event and nothing else is.
-/

namespace Telescope.Synthetic

variable {config : Synthetic} {scene : Scene} {first count : Nat} {g between last : Generator}
  {events front back : Trace}

/-! ## Events one after the other

`Draws` is the run without its result: a list of events and the two states that it leads between.
Runs with a state in common are put together, and a run is taken apart at any event, by the same
equivalence. -/

/-- These events are drawn one after the other, numbered from `first` on. The stream is at `g` before
the first of them and at `last` behind the last one. -/
inductive Draws (config : Synthetic) (scene : Scene) : Nat → Generator → Trace → Generator → Prop
  /-- nothing is drawn -/
  | nil {first : Nat} {g : Generator} : Draws config scene first g [] g
  /-- one event is drawn, and the others from where it has left the stream -/
  | cons {first : Nat} {g next last : Generator} {e : TraceEvent} {rest : Trace}
      (head : config.event scene (UInt64.ofNat first) g = .ok (e, next))
      (tail : Draws config scene (first + 1) next rest last) :
      Draws config scene first g (e :: rest) last

/-- So many events are made if they can be drawn one after the other. The relation on the right has
no accumulator and no loop, and can be cut anywhere. -/
theorem eventsFrom_eq_ok_iff : config.eventsFrom scene first count g = .ok events ↔
    events.length = count ∧ ∃ last, Draws config scene first g events last := by
  induction count generalizing first g events with
  | zero =>
    constructor
    · intro h
      obtain rfl := Except.ok.inj h
      exact ⟨rfl, g, .nil⟩
    · rintro ⟨hlength, -⟩
      obtain rfl := List.eq_nil_of_length_eq_zero hlength
      rfl
  | succ count ih =>
    constructor
    · intro h
      obtain ⟨⟨e, next⟩, hevent, h⟩ := bind_eq_ok.1 h
      obtain ⟨rest, hrest, h⟩ := bind_eq_ok.1 h
      obtain rfl := Except.ok.inj h
      obtain ⟨hlength, last, hdraws⟩ := ih.1 hrest
      exact ⟨congrArg (· + 1) hlength, last, .cons hevent hdraws⟩
    · rintro ⟨hlength, last, hdraws⟩
      cases hdraws with
      | nil => exact nomatch hlength
      | cons head tail =>
        have hrest := ih.2 ⟨Nat.succ.inj hlength, last, tail⟩
        exact bind_eq_ok.2 ⟨_, head, bind_eq_ok.2 ⟨_, hrest, rfl⟩⟩

/-- A run can be cut anywhere, and be continued where it ended. The stream has to be handed on, and
the numbers of the events go on. -/
theorem draws_append_iff : Draws config scene first g (front ++ back) last ↔
    ∃ between, Draws config scene first g front between ∧
      Draws config scene (first + front.length) between back last := by
  induction front generalizing first g with
  | nil =>
    constructor
    · exact fun h => ⟨g, .nil, h⟩
    · rintro ⟨between, hfront, hback⟩
      cases hfront with
      | nil => exact hback
  | cons e front ih =>
    have hnumber : first + (e :: front).length = first + 1 + front.length := by
      rw [List.length_cons]
      omega
    rw [hnumber]
    constructor
    · intro h
      cases h with
      | cons head tail =>
        obtain ⟨between, hfront, hback⟩ := ih.1 tail
        exact ⟨between, .cons head hfront, hback⟩
    · rintro ⟨between, hfront, hback⟩
      cases hfront with
      | cons head tail => exact .cons head (ih.2 ⟨between, tail, hback⟩)

/-! ## The number of events

The number is the only setting that a longer trace changes. No event looks at it. -/

/-- The same settings for another number of events. -/
def withEvents (config : Synthetic) (n : UInt64) : Synthetic := { config with events := n }

/-- The planes do not look at the number of events. -/
theorem planeSteps_withEvents (config : Synthetic) (n : UInt64) (track : Track) (planes : List Volume)
    (g : Generator) :
    (config.withEvents n).planeSteps track planes g = config.planeSteps track planes g := by
  induction planes generalizing g with
  | nil => rfl
  | cons plane rest ih =>
    unfold planeSteps
    simp only [ih]
    rfl

/-- How an event is made does not depend on how many there will be. -/
theorem event_withEvents (config : Synthetic) (n : UInt64) (scene : Scene) (number : UInt64)
    (g : Generator) :
    (config.withEvents n).event scene number g = config.event scene number g := by
  unfold event
  simp only [planeSteps_withEvents]
  rfl

/-- So a run with one number is a run with any other. -/
theorem eventsFrom_withEvents (config : Synthetic) (n : UInt64) (scene : Scene) (first count : Nat)
    (g : Generator) :
    (config.withEvents n).eventsFrom scene first count g = config.eventsFrom scene first count g := by
  induction count generalizing first g with
  | zero => rfl
  | succ count ih =>
    unfold eventsFrom
    simp only [event_withEvents, ih]

/-- **A longer trace starts with the shorter one.** If the longer one can be made, then so can the
shorter one, and the events that come after it are drawn from where it has left the stream. -/
theorem trace_withEvents {layout : Detector.Layout} {gun : Gun} {n m : UInt64} {long : Trace}
    (hle : n ≤ m) (h : (config.withEvents m).trace layout gun = .ok long) :
    (config.withEvents n).trace layout gun = .ok (long.take n.toNat) ∧
      ∀ scene, sceneOf layout gun = some scene → ∃ between last,
        Draws config scene 0 (.ofSeed config.seed) (long.take n.toNat) between ∧
          Draws config scene n.toNat between (long.drop n.toNat) last := by
  rw [trace_eq_traceFrom] at h ⊢
  obtain ⟨rfl, hbackward⟩ | ⟨scene, hscene, hforward, hevents⟩ := traceFrom_eq_ok_iff.1 h
  · rw [List.take_nil, List.drop_nil]
    exact ⟨traceFrom_eq_ok_iff.2 (.inl ⟨rfl, hbackward⟩), fun _ _ => ⟨_, _, .nil, .nil⟩⟩
  · rw [eventsFrom_withEvents] at hevents
    obtain ⟨hlength, last, hdraws⟩ := eventsFrom_eq_ok_iff.1 hevents
    have hshort : (long.take n.toNat).length = n.toNat := by
      have hle' : n.toNat ≤ m.toNat := hle
      rw [List.length_take, hlength]
      exact min_eq_left hle'
    rw [← List.take_append_drop n.toNat long, draws_append_iff, hshort, Nat.zero_add] at hdraws
    obtain ⟨between, hfront, hback⟩ := hdraws
    refine ⟨traceFrom_eq_ok_iff.2 (.inr ⟨scene, hscene, hforward, ?_⟩), fun other hother => ?_⟩
    · rw [eventsFrom_withEvents]
      exact eventsFrom_eq_ok_iff.2 ⟨hshort, between, hfront⟩
    · obtain rfl := Option.some.inj (hscene.symm.trans hother)
      exact ⟨between, last, hfront, hback⟩

/-- Kinks are drawn, and every plane sees about one half of the crossings. -/
theorem trace_withEvents_two_of_five :
    ∃ long, Synthetic.trace (withEvents { Synthetic.default with efficiency := 0.5 } 5)
        (Detector.Layout.build .default .standard).1 .default = .ok long ∧
      long.length = 5 ∧
      Synthetic.trace (withEvents { Synthetic.default with efficiency := 0.5 } 2)
        (Detector.Layout.build .default .standard).1 .default = .ok (long.take 2) := by
  have hdrawable : Drawable (withEvents { Synthetic.default with efficiency := 0.5 } 5) :=
    drawable_of_spreads (by with_unfolding_all decide) (by with_unfolding_all decide)
      (by with_unfolding_all decide)
  obtain ⟨long, hlong, hlength⟩ := hdrawable.exists_trace sceneOf_build (fire_default_forward _)
  exact ⟨long, hlong, hlength, (trace_withEvents (by decide) hlong).1⟩

end Telescope.Synthetic
