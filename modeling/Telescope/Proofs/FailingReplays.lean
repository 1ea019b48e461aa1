import Telescope.Proofs.ReplayRefinement
import Telescope.Proofs.ScheduleFree
import Telescope.Proofs.VolumeNames

/-!
# Replays that fail

With sinks in memory nothing but a step without a volume makes a replay fail. Each worker stops at
the first such step of its share and the others go on, so several workers may fail. Which failure is
that of the replay is said here by places of the trace alone:

* `TraceStep.Lost` and `TraceEvent.Lost` say for which steps and events no volume is found, and what
  the error is then;
* `failure?_runOrRelease`: a worker fails with its first lost event, or not at all;
* `failure?_execute`: the replay fails with the first failure in the order of the workers;
* `execute_eq_error_iff`: that is the first lost event of the least worker that has one.

`failure_of_replay` puts these together with the freedom of schedules: the workers may be
interleaved in any way.

Nothing else can fail, since a sink in memory takes every call in its turn, and the workers call
theirs in turn. The least worker need not be the one that fails first: which does depends on the
schedule, but the answer is taken from the workers in their order, when all have ended.
-/

namespace Telescope

/-! ## Steps and events without a volume

A step that names a volume fails if there is none of this name, and any other step fails if no
volume has its position. Both are said of the volumes themselves. -/

namespace Detector.Layout

/-- A point is in no volume if it is neither in the world nor in a volume inside. -/
theorem locate_eq_none_iff {layout : Layout} {point : Vector3} :
    layout.locate point = none ↔ ∀ v ∈ layout.volumes, v.contains point = false := by
  simp [locate, volumes_eq, and_comm]

end Detector.Layout

/-- For this step of a trace no volume is found, and this is the error. -/
inductive TraceStep.Lost (layout : Detector.Layout) (s : TraceStep) : PlacementError → Prop
  /-- it names a volume that the detector does not have -/
  | unknown {name : String} (hname : s.volume = some name)
      (hnone : ∀ v ∈ layout.volumes, v.name ≠ name) : s.Lost layout (.unknownVolume name)
  /-- it names none, and lies in no volume of the detector -/
  | outside (hname : s.volume = none)
      (hnone : ∀ v ∈ layout.volumes, v.contains s.position = false) :
      s.Lost layout (.outsideWorld s.position)

namespace TraceStep

variable {layout : Detector.Layout} {s : TraceStep} {cause : PlacementError}

/-- No volume is found for a lost step, and only for such. -/
theorem volumeIn_eq_error_iff : s.volumeIn layout = .error cause ↔ s.Lost layout cause := by
  unfold volumeIn
  constructor
  · intro h
    cases hname : s.volume with
    | some name =>
      cases hfound : layout.volumeNamed? name with
      | some v => simp [hname, hfound] at h
      | none =>
        simp only [hname, hfound, Except.error.injEq] at h
        obtain rfl := h
        exact .unknown hname (Detector.Layout.volumeNamed?_eq_none_iff.1 hfound)
    | none =>
      cases hfound : layout.locate s.position with
      | some id => simp [hname, hfound] at h
      | none =>
        simp only [hname, hfound, Except.error.injEq] at h
        obtain rfl := h
        exact .outside hname (Detector.Layout.locate_eq_none_iff.1 hfound)
  · rintro (⟨hname, hnone⟩ | ⟨hname, hnone⟩)
    · simp only [hname, Detector.Layout.volumeNamed?_eq_none_iff.2 hnone]
    · simp only [hname, Detector.Layout.locate_eq_none_iff.2 hnone]

/-- A step is placed by its volume alone, so it fails for the same cause. -/
theorem place_eq_error_iff : s.place layout = .error cause ↔ s.Lost layout cause := by
  rw [← volumeIn_eq_error_iff, place]
  cases s.volumeIn layout <;> simp [Except.map]

end TraceStep

/-- Some step of this event is lost, and this is the error of the first one. -/
def TraceEvent.Lost (layout : Detector.Layout) (e : TraceEvent) (cause : PlacementError) : Prop :=
  ∃ before s after, e.steps = before ++ s :: after ∧ s.Lost layout cause ∧
    ∀ t ∈ before, ∀ other, ¬ t.Lost layout other

namespace Replay

/-! ## Failures

Every part of a replay stops at its first failure, or takes the first from a list. With the failure
as an option both are one operation on lists, `findSome?`. -/

/-- The failure, if there is one. -/
def failure? {ε α : Type} : Except ε α → Option ε
  | .error cause => some cause
  | .ok _ => none

/-- There is a failure exactly if something failed with it. -/
theorem failure?_eq_some_iff {ε α : Type} {x : Except ε α} {cause : ε} :
    failure? x = some cause ↔ x = .error cause := by
  cases x <;> simp [failure?]

/-- There is none if nothing failed. -/
theorem failure?_eq_none_iff {ε α : Type} {x : Except ε α} :
    failure? x = none ↔ ∀ cause, x ≠ .error cause := by
  cases x <;> simp [failure?]

/-- What is done to the elements of a list in order fails with the first failure. The elements
behind it have no say. -/
theorem failure?_mapM {α β ε : Type} (f : α → Except ε β) (xs : List α) :
    failure? (xs.mapM f) = xs.findSome? fun x => failure? (f x) := by
  induction xs with
  | nil => rfl
  | cons x rest ih =>
    rw [List.mapM_cons, List.findSome?_cons]
    cases hx : f x with
    | error cause => rfl
    | ok y =>
      refine Eq.trans ?_ ih
      cases rest.mapM f <;> rfl

/-- The master fails with the first failure in the order of the workers. -/
theorem failure?_merge {S : Type} (host : Host)
    (results : List (Except ReplayError (Summary × S))) :
    failure? (merge host results).2 = (results.map failure?).findSome? id := by
  have hall : failure? (results.mapM id) = results.findSome? failure? := failure?_mapM id results
  rw [List.findSome?_map, Function.id_comp, ← hall]
  unfold merge
  cases results.mapM id <;> rfl

/-- In a list that is ordered by a number, the first element for which something is found is the one
with the least number. -/
theorem findSome?_eq_some_iff_least {α β : Type} (key : α → Nat) {xs : List α}
    (hsorted : xs.Pairwise fun x y => key x < key y) {f : α → Option β} {b : β} :
    xs.findSome? f = some b ↔
      ∃ x ∈ xs, f x = some b ∧ ∀ y ∈ xs, key y < key x → f y = none := by
  constructor
  · intro h
    obtain ⟨before, x, after, rfl, hx, hbefore⟩ := List.findSome?_eq_some_iff.1 h
    refine ⟨x, by simp, hx, ?_⟩
    intro y hy hless
    obtain hy | hy := List.mem_append.1 hy
    · exact hbefore y hy
    · -- from `x` on no number is less than that of `x`
      have hafter := (List.pairwise_cons.1 (List.pairwise_append.1 hsorted).2.1).1
      obtain rfl | hy := List.mem_cons.1 hy
      · exact absurd hless (Nat.lt_irrefl _)
      · exact absurd hless (Nat.lt_asymm (hafter y hy))
  · rintro ⟨x, hmem, hx, hleast⟩
    obtain ⟨before, after, rfl⟩ := List.append_of_mem hmem
    refine List.findSome?_eq_some_iff.2 ⟨before, x, after, rfl, hx, ?_⟩
    intro y hy
    have hless := (List.pairwise_append.1 hsorted).2.2 y hy x List.mem_cons_self
    exact hleast y (List.mem_append_left _ hy) hless

/-! ## The failure of an event

The replay places the steps of an event before its worker begins it, so a lost event leaves the
worker as it was. -/

/-- An event is placed step by step, so it fails with the first that is lost. -/
theorem place_eq_error_iff {layout : Detector.Layout} {e : TraceEvent} {cause : PlacementError} :
    e.place layout = .error cause ↔ e.Lost layout cause := by
  rw [← failure?_eq_some_iff, TraceEvent.place, failure?_mapM, List.findSome?_eq_some_iff]
  simp only [failure?_eq_some_iff, failure?_eq_none_iff, TraceStep.place_eq_error_iff, ne_eq,
    TraceEvent.Lost]

/-- An event is lost if one of its steps is. -/
theorem exists_lost_iff {layout : Detector.Layout} {e : TraceEvent} :
    (∃ cause, e.Lost layout cause) ↔ ∃ s ∈ e.steps, ∃ cause, s.Lost layout cause := by
  simp only [← place_eq_error_iff, ← TraceStep.place_eq_error_iff, ← failure?_eq_some_iff,
    ← Option.isSome_iff_exists, TraceEvent.place, failure?_mapM, List.findSome?_isSome_iff]

/-- What a replay says about an event that is lost. -/
def lost? (layout : Detector.Layout) (e : TraceEvent) : Option ReplayError :=
  (failure? (e.place layout)).map (.placement e)

/-- The replay says which event was lost, and why. -/
theorem lost?_eq_some_iff {layout : Detector.Layout} {e : TraceEvent} {error : ReplayError} :
    lost? layout e = some error ↔ ∃ cause, e.Lost layout cause ∧ error = .placement e cause := by
  simp only [lost?, Option.map_eq_some_iff, failure?_eq_some_iff, place_eq_error_iff]
  simp only [eq_comm (a := error)]

/-- It says nothing of an event that is not lost. -/
theorem lost?_eq_none_iff {layout : Detector.Layout} {e : TraceEvent} :
    lost? layout e = none ↔ ∀ cause, ¬ e.Lost layout cause := by
  simp only [lost?, Option.map_eq_none_iff, failure?_eq_none_iff, ne_eq, place_eq_error_iff]

/-- An event that is not lost ends in some way. -/
theorem exists_endsIn {layout : Detector.Layout} {e : TraceEvent} (h : lost? layout e = none) :
    ∃ o, e.EndsIn layout o := by
  unfold lost? at h
  cases hplace : e.place layout with
  | error cause => simp [hplace, failure?] at h
  | ok steps =>
    obtain ⟨o, ho⟩ := exists_ends layout.sensitive steps
    exact ⟨o, steps, hplace, ho⟩

/-! ## The failure of a worker

A worker that is in the middle of a run answers each call, so only placing can stop it. The state
that makes this so is the invariant of earlier modules, `Worker.Holds`. -/

section

variable {S : Type} [Sink S] [ReliableSink S] {layout : Detector.Layout} {crew : Crew}

/-- In the middle of a run, the rest of the share fails with its first lost event. The induction is
on the share, and an event that is not lost leaves the worker in the middle of its run. -/
theorem failure?_events (hcrew : crew.sensitive = layout.sensitive) {w : Worker S}
    {outcomes : List Outcome} (h : w.Holds crew outcomes) (host : Host) (share : List TraceEvent) :
    failure? (events layout w host share).result = share.findSome? (lost? layout) := by
  -- on the share, from any worker that holds some outcomes and any host
  induction share generalizing w outcomes host with
  | nil => rfl
  | cons e rest ih =>
    rw [List.findSome?_cons]
    cases hlost : lost? layout e with
    | none =>
      obtain ⟨o, ho⟩ := exists_endsIn hlost
      obtain ⟨hok, hnext⟩ := holds_event hcrew h ho host
      have hrest := ih hnext (event layout w host e).host
      simpa only [events, hok] using hrest
    | some error =>
      obtain ⟨cause, hcause, rfl⟩ := lost?_eq_some_iff.1 hlost
      simp only [events, event, place_eq_error_iff.2 hcause, failure?]

/-- From a closed sink, a worker fails with the first lost event of its share. Beginning and ending
the run cannot fail, so the events decide. -/
theorem failure?_runOrRelease (hcrew : crew.sensitive = layout.sensitive) (number : Nat) {sink : S}
    {rows : List Row} (hclosed : ReliableSink.Closed sink rows) (host : Host)
    (share : List TraceEvent) :
    failure? (runOrRelease layout (crew.worker number sink) host share).2 =
      share.findSome? (lost? layout) := by
  cases hlost : share.findSome? (lost? layout) with
  | none =>
    -- all events end, so that the worker delivers
    have hplaced : ∀ e ∈ share, ∃ steps, e.place layout = .ok steps := by
      intro e he
      obtain ⟨o, steps, hsteps, -⟩ := exists_endsIn (List.findSome?_eq_none_iff.1 hlost e he)
      exact ⟨steps, hsteps⟩
    obtain ⟨outcomes, hends⟩ := exists_outcomes hplaced
    obtain ⟨sink', hresult, -⟩ := runOrRelease_delivers hcrew number hclosed hends host
    rw [hresult]
    rfl
  | some error =>
    obtain ⟨hbegin, hbegun⟩ : ((crew.worker number sink).beginRun host).result = .ok () ∧
        ((crew.worker number sink).beginRun host).worker.Holds crew [] :=
      Worker.holds_beginRun rfl rfl hclosed host
    have hevents :=
      failure?_events hcrew hbegun ((crew.worker number sink).beginRun host).host share
    rw [hlost, failure?_eq_some_iff] at hevents
    simp only [runOrRelease, run, hbegin, hevents, failure?]

/-! ## The failure of the replay -/

/-- Every worker fails on its own account. -/
theorem failure?_runAll (crew : Crew) (hcrew : crew.sensitive = layout.sensitive)
    {makeSink : Nat → S}
    (hclosed : ∀ number, ∃ rows, ReliableSink.Closed (makeSink number) rows) (workers : Nat)
    (trace : Trace) (host : Host) (numbers : List Nat) :
    (runAll layout crew makeSink workers trace host numbers).2.map failure? =
      numbers.map fun number => (share workers number trace).findSome? (lost? layout) := by
  induction numbers generalizing host with
  | nil => rfl
  | cons number rest ih =>
    obtain ⟨rows, hsink⟩ := hclosed number
    rw [List.map_cons, ← failure?_runOrRelease hcrew number hsink host, ← ih]
    rfl

/-- The replay fails with the first lost event of the first worker that has one. -/
theorem failure?_execute {makeSink : Nat → S}
    (hclosed : ∀ number, ∃ rows, ReliableSink.Closed (makeSink number) rows) (workers : Nat)
    (layout : Detector.Layout) (gun : Gun) (trace : Trace) (files : Files) :
    failure? (execute workers layout gun trace makeSink files).2 =
      (List.range (max workers 1)).findSome? fun w =>
        (share (max workers 1) w trace).findSome? (lost? layout) := by
  have hall := failure?_runAll ⟨layout.sensitive, gun, true⟩ rfl hclosed (max workers 1) trace
    (Host.fresh files) (List.range (max workers 1))
  refine (failure?_merge _ _).trans ?_
  rw [hall, List.findSome?_map, Function.id_comp]

end

/-! ## By places of the trace

So far the answer is a search through shares. The place of an event in the trace tells both its
worker, by the rest, and its turn there. -/

/-- Every place of a list stands after those before it, so the first found is the one at the least
place. -/
theorem pairwise_zipIdx {α : Type} (xs : List α) :
    xs.zipIdx.Pairwise fun x y => x.2 < y.2 := by
  rw [← List.pairwise_map (f := Prod.snd) (R := (· < ·)), List.zipIdx_map_snd]
  exact List.pairwise_lt_range'

section

variable {layout : Detector.Layout} {trace : Trace} {n w : Nat} (hw : w < n)

include hw

/-- A worker fails with the lost event at the least of its places. -/
theorem findSome?_share_eq_some_iff {error : ReplayError} :
    (share n w trace).findSome? (lost? layout) = some error ↔
      ∃ e place cause, (e, place) ∈ trace.zipIdx ∧ place % n = w ∧ e.Lost layout cause ∧
        (∀ e' i, (e', i) ∈ trace.zipIdx → i % n = w → i < place →
          ∀ other, ¬ e'.Lost layout other) ∧
        error = .placement e cause := by
  rw [share_eq_atRest hw, atRest, List.findSome?_map,
    findSome?_eq_some_iff_least Prod.snd ((pairwise_zipIdx trace).filter _)]
  simp only [List.mem_filter, Prod.exists, Prod.forall, decide_eq_true_eq, Function.comp_apply,
    lost?_eq_some_iff, lost?_eq_none_iff]
  constructor
  · rintro ⟨e, place, ⟨hhere, hrest⟩, ⟨cause, hlost, herror⟩, hfirst⟩
    exact ⟨e, place, cause, hhere, hrest, hlost,
      fun e' i hi hmod hless => hfirst e' i ⟨hi, hmod⟩ hless, herror⟩
  · rintro ⟨e, place, cause, hhere, hrest, hlost, hfirst, herror⟩
    exact ⟨e, place, ⟨hhere, hrest⟩, ⟨cause, hlost, herror⟩,
      fun e' i hi hless => hfirst e' i hi.1 hi.2 hless⟩

/-- It does not fail if no event at its places is lost. -/
theorem findSome?_share_eq_none_iff :
    (share n w trace).findSome? (lost? layout) = none ↔
      ∀ e i, (e, i) ∈ trace.zipIdx → i % n = w → ∀ other, ¬ e.Lost layout other := by
  rw [share_eq_atRest hw, atRest, List.findSome?_map, List.findSome?_eq_none_iff]
  simp only [List.mem_filter, Prod.forall, decide_eq_true_eq, Function.comp_apply,
    lost?_eq_none_iff, and_imp]

end

/-- The event at this place of the trace is the one that the replay with `n` workers fails with: the
worker that it is dealt to has no lost event before it, and no worker with a lesser number has
any. -/
structure FailsAt (layout : Detector.Layout) (n : Nat) (trace : Trace) (e : TraceEvent)
    (place : Nat) (cause : PlacementError) : Prop where
  /-- the event stands there -/
  here : (e, place) ∈ trace.zipIdx
  /-- the event is lost, and this is the error of its first lost step -/
  lost : e.Lost layout cause
  /-- what the same worker has before it is not lost -/
  first : ∀ e' i, (e', i) ∈ trace.zipIdx → i % n = place % n → i < place →
    ∀ other, ¬ e'.Lost layout other
  /-- what workers with a lesser number have is not lost -/
  least : ∀ e' i, (e', i) ∈ trace.zipIdx → i % n < place % n → ∀ other, ¬ e'.Lost layout other

section

variable {S : Type} [Sink S] [ReliableSink S] {makeSink : Nat → S}
  (hclosed : ∀ number, ∃ rows, ReliableSink.Closed (makeSink number) rows) (workers : Nat)
  (layout : Detector.Layout) (gun : Gun) (trace : Trace) (files : Files)

include hclosed

/-- The replay fails if a step of some event is lost. Every event is in some share, and no worker
passes over a lost one. -/
theorem execute_exists_error_iff :
    (∃ error, (execute workers layout gun trace makeSink files).2 = .error error) ↔
      ∃ e ∈ trace, ∃ s ∈ e.steps, ∃ cause, s.Lost layout cause := by
  have hn : 0 < max workers 1 := Nat.lt_of_lt_of_le Nat.one_pos (Nat.le_max_right workers 1)
  have hlost : ∀ e, (lost? layout e).isSome ↔ ∃ s ∈ e.steps, ∃ cause, s.Lost layout cause := by
    intro e
    simp only [← exists_lost_iff, lost?, Option.isSome_map, Option.isSome_iff_exists,
      failure?_eq_some_iff, place_eq_error_iff]
  simp only [← failure?_eq_some_iff, ← Option.isSome_iff_exists, failure?_execute hclosed,
    List.findSome?_isSome_iff, hlost]
  simp only [← (flatMap_share_perm hn trace).mem_iff, List.mem_flatMap]
  constructor
  · rintro ⟨w, hw, e, he, hs⟩
    exact ⟨e, ⟨w, hw, he⟩, hs⟩
  · rintro ⟨e, ⟨w, hw, he⟩, hs⟩
    exact ⟨w, hw, e, he, hs⟩

/-- The replay fails with the event at which it fails by its places. The first worker in the order
is the one with the least rest. -/
theorem execute_eq_error_iff {error : ReplayError} :
    (execute workers layout gun trace makeSink files).2 = .error error ↔
      ∃ e place cause, FailsAt layout (max workers 1) trace e place cause ∧
        error = .placement e cause := by
  have hn : 0 < max workers 1 := Nat.lt_of_lt_of_le Nat.one_pos (Nat.le_max_right workers 1)
  rw [← failure?_eq_some_iff, failure?_execute hclosed,
    findSome?_eq_some_iff_least id List.pairwise_lt_range]
  constructor
  · rintro ⟨w, hw, hsome, hleast⟩
    have hlt := List.mem_range.1 hw
    obtain ⟨e, place, cause, hhere, rfl, hlost, hfirst, herror⟩ :=
      (findSome?_share_eq_some_iff hlt).1 hsome
    refine ⟨e, place, cause, ⟨hhere, hlost, hfirst, ?_⟩, herror⟩
    intro e' i hi hless
    have hbelow := hless.trans hlt
    have hnone := hleast _ (List.mem_range.2 hbelow) hless
    exact (findSome?_share_eq_none_iff hbelow).1 hnone e' i hi rfl
  · rintro ⟨e, place, cause, hfails, rfl⟩
    have hlt := Nat.mod_lt place hn
    refine ⟨_, List.mem_range.2 hlt, (findSome?_share_eq_some_iff hlt).2
      ⟨e, place, cause, hfails.here, rfl, hfails.lost, hfails.first, rfl⟩, ?_⟩
    intro w hw hless
    refine (findSome?_share_eq_none_iff (List.mem_range.1 hw)).2 ?_
    rintro e' i hi rfl
    exact hfails.least e' i hi hless

end

/-- **Failing replays.** For any number of workers, detector, trace and files, with sinks in memory:

* the replay fails if and only if for some step of some event no volume is found;
* it then fails with the first such event of the least worker that has one, and the error is that of
  the first such step of the event;
* the workers may be interleaved in any way: from wherever they are they can go on until all have
  ended, and whenever they have, the replay comes to this answer. -/
theorem failure_of_replay (workers : Nat) (layout : Detector.Layout) (gun : Gun) (trace : Trace)
    (files : Files) :
    let answer := (execute workers layout gun trace (fun _ => MemorySink.fresh) files).2
    let start := Joint.start workers layout gun trace (fun _ => MemorySink.fresh) files
    ((∃ error, answer = .error error) ↔
      ∃ e ∈ trace, ∃ s ∈ e.steps, ∃ cause, s.Lost layout cause) ∧
    (∀ error, answer = .error error ↔
      ∃ e place cause, FailsAt layout (max workers 1) trace e place cause ∧
        error = .placement e cause) ∧
    ∀ schedule,
      (∃ more, ((start.play layout schedule).play layout more).join?.isSome) ∧
      ∀ host outcome, (start.play layout schedule).join? = some (host, outcome) →
        outcome = answer := by
  intro answer start
  have hclosed : ∀ number : Nat, ∃ rows,
      ReliableSink.Closed ((fun _ => MemorySink.fresh) number) rows :=
    fun _ => ⟨[], MemorySink.closed_fresh⟩
  refine ⟨execute_exists_error_iff hclosed workers layout gun trace files, ?_, ?_⟩
  · intro error
    exact execute_eq_error_iff hclosed workers layout gun trace files
  · intro schedule
    refine ⟨Joint.exists_joined layout (start.play layout schedule), ?_⟩
    intro host outcome hjoined
    exact Joint.answer_of_joined hjoined

end Replay

end Telescope
