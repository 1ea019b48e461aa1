import Mathlib.Data.List.Basic
import Telescope.Run.Replay

/-!
# What an event gathers

The accumulator of a worker is changed by one step after the other. Here its contents at the end of
an event are described from the list of steps alone:

* `Sensitive.Hits` and `Sensitive.Deposits` say what a single step counts as; a step that is neither
  leaves the accumulator as it was (`addStep_of_ignored`);
* `hit_gather` and `caloEdep_gather` follow a run of steps from any accumulator, by induction on the
  steps; the invariant is that a plane is only ever written while it is empty;
* `takeSteps_eq` carries both to a worker, whose other parts no step touches.

Volumes need not be distinct: a volume that stands for several planes feeds the first of them, and
one that stands for a plane and the calorimeter feeds the plane.

Sums are sums of doubles, taken in the order of the steps. They are not regrouped anywhere, so the
order is part of each statement.
-/

namespace Telescope

/-! ## Single steps

A step counts by its volume. Planes are looked up from the first on, and the calorimeter after them,
which is where the order of the definitions below comes from. -/

namespace Detector.Sensitive

/-- The volume of a tracker plane. -/
def tracker (sensitive : Sensitive) (plane : Fin 4) : VolumeId := sensitive.trackers.get plane

/-- The step is a hit of the plane: it is in the plane's volume, which belongs to no plane before. -/
def Hits (sensitive : Sensitive) (plane : Fin 4) (s : Step) : Prop :=
  sensitive.tracker plane = s.volume ∧
    ∀ earlier : Fin 4, earlier < plane → sensitive.tracker earlier ≠ s.volume

/-- The step leaves its energy in the calorimeter, whose volume belongs to no plane. -/
def Deposits (sensitive : Sensitive) (s : Step) : Prop :=
  s.volume = sensitive.calorimeter ∧ ∀ plane : Fin 4, sensitive.tracker plane ≠ s.volume

instance (sensitive : Sensitive) (plane : Fin 4) (s : Step) : Decidable (sensitive.Hits plane s) :=
  inferInstanceAs (Decidable (_ ∧ _))

instance (sensitive : Sensitive) (s : Step) : Decidable (sensitive.Deposits s) :=
  inferInstanceAs (Decidable (_ ∧ _))

/-- The step is the first of the list that hits the plane. -/
def FirstHit (sensitive : Sensitive) (plane : Fin 4) (steps : List Step) (s : Step) : Prop :=
  sensitive.Hits plane s ∧
    ∃ before after, steps = before ++ s :: after ∧ ∀ r ∈ before, ¬ sensitive.Hits plane r

/-- The energies that the steps leave in the calorimeter, in order. -/
def deposits (sensitive : Sensitive) (steps : List Step) : List Float :=
  (steps.filter fun s => sensitive.Deposits s).map Step.edep

/-- The plane of a volume is the first that has it. -/
theorem plane?_eq_some_iff {sensitive : Sensitive} {volume : VolumeId} {plane : Fin 4} :
    sensitive.plane? volume = some plane ↔
      sensitive.tracker plane = volume ∧
        ∀ earlier : Fin 4, earlier < plane → sensitive.tracker earlier ≠ volume := by
  unfold plane?
  rw [List.find?_eq_some_iff_getElem]
  simp only [beq_iff_eq, List.getElem_finRange, List.length_finRange]
  constructor
  · rintro ⟨hp, i, hi, rfl, hbefore⟩
    refine ⟨hp, fun earlier he => ?_⟩
    simpa [tracker, Vector.get] using hbefore earlier.val he
  · rintro ⟨hp, hbefore⟩
    refine ⟨hp, plane.val, plane.isLt, rfl, fun j hj => ?_⟩
    simpa [tracker, Vector.get] using hbefore ⟨j, by omega⟩ hj

/-- A volume that belongs to no plane has none. -/
theorem plane?_eq_none_iff {sensitive : Sensitive} {volume : VolumeId} :
    sensitive.plane? volume = none ↔ ∀ plane : Fin 4, sensitive.tracker plane ≠ volume := by
  simp [plane?, List.find?_eq_none, tracker, Vector.get]

/-- A step is routed to a plane exactly if it is a hit of it. -/
theorem route_eq_tracker_iff {sensitive : Sensitive} {s : Step} {plane : Fin 4} :
    sensitive.route s.volume = .tracker plane ↔ sensitive.Hits plane s := by
  rw [Hits, ← plane?_eq_some_iff, route]
  cases sensitive.plane? s.volume with
  | some p => simp
  | none =>
    simp only [reduceCtorEq, iff_false]
    split <;> simp

/-- A step is routed to the calorimeter exactly if it is a deposit there. -/
theorem route_eq_calorimeter_iff {sensitive : Sensitive} {s : Step} :
    sensitive.route s.volume = .calorimeter ↔ sensitive.Deposits s := by
  rw [Deposits, ← plane?_eq_none_iff, route]
  cases sensitive.plane? s.volume with
  | some p => simp
  | none => simp

end Detector.Sensitive

open Detector (Sensitive)

namespace Accumulator

/-- What a plane saw. -/
def hit (acc : Accumulator) (plane : Fin 4) : Hit := acc.hits.get plane

/-- Each of the four planes has a record. -/
theorem hit?_eq (acc : Accumulator) (plane : Fin 4) : acc.hit? plane = some (acc.hit plane) := by
  simp [hit?, hit, Vector.get]

/-- An empty plane takes the hit. -/
theorem addHit_of_empty {acc : Accumulator} {plane : Fin 4} (hr : (acc.hit plane).recorded = false)
    (position momentum : Vector3) :
    acc.addHit plane position momentum =
      { acc with hits := acc.hits.setIfInBounds plane ⟨position, momentum, true⟩ } := by
  have hget : acc.hits[plane.val]? = some (acc.hit plane) := acc.hit?_eq plane
  simp only [addHit, hget, hr]
  rfl

/-- A plane takes the hit if it is empty, and no other plane changes. -/
theorem hit_addHit (acc : Accumulator) (plane k : Fin 4) (position momentum : Vector3) :
    (acc.addHit plane position momentum).hit k =
      if plane = k ∧ (acc.hit plane).recorded = false then ⟨position, momentum, true⟩
      else acc.hit k := by
  cases hr : (acc.hit plane).recorded with
  | true =>
    rw [addHit_of_recorded (acc.hit?_eq plane) hr]
    simp
  | false =>
    rw [addHit_of_empty hr]
    have hset : (acc.hits.setIfInBounds plane ⟨position, momentum, true⟩).get k =
        if plane.val = k.val then ⟨position, momentum, true⟩ else acc.hits.get k :=
      Vector.getElem_setIfInBounds ..
    simpa [hit, Fin.ext_iff] using hset

/-- A hit leaves the sum alone. -/
@[simp] theorem caloEdep_addHit (acc : Accumulator) (plane : Nat) (position momentum : Vector3) :
    (acc.addHit plane position momentum).caloEdep = acc.caloEdep := by
  unfold addHit
  split
  · rfl
  · split <;> rfl

/-- A plane changes only by its first hit. A step in the volume of an earlier plane goes there, and
one that comes too late goes nowhere. -/
theorem hit_addStep (acc : Accumulator) (sensitive : Sensitive) (s : Step) (k : Fin 4) :
    (acc.addStep sensitive s).1.hit k =
      if sensitive.Hits k s ∧ (acc.hit k).recorded = false then ⟨s.position, s.momentum, true⟩
      else acc.hit k := by
  simp only [← Sensitive.route_eq_tracker_iff]
  unfold addStep
  cases sensitive.route s.volume with
  | tracker plane =>
    rw [hit_addHit]
    by_cases hk : plane = k
    · subst hk
      simp
    · simp [hk]
  | calorimeter =>
    -- energy alone touches no plane
    rw [if_neg fun hhit => nomatch hhit.1]
    rfl
  | ignored => simp

/-- The sum changes only by a deposit. -/
theorem caloEdep_addStep (acc : Accumulator) (sensitive : Sensitive) (s : Step) :
    (acc.addStep sensitive s).1.caloEdep =
      if sensitive.Deposits s then acc.caloEdep + s.edep else acc.caloEdep := by
  simp only [← Sensitive.route_eq_calorimeter_iff]
  unfold addStep
  cases sensitive.route s.volume <;> simp [addEnergy]

/-- A step that is neither a hit nor a deposit has no effect. -/
theorem addStep_of_ignored (acc : Accumulator) {sensitive : Sensitive} {s : Step}
    (hhit : ∀ plane, ¬ sensitive.Hits plane s) (hdeposit : ¬ sensitive.Deposits s) :
    (acc.addStep sensitive s).1 = acc := by
  unfold addStep
  cases hroute : sensitive.route s.volume with
  | tracker plane => exact absurd (Sensitive.route_eq_tracker_iff.1 hroute) (hhit plane)
  | calorimeter => exact absurd (Sensitive.route_eq_calorimeter_iff.1 hroute) hdeposit
  | ignored => rfl

/-! ## Runs of steps

The three lemmas about a plane are the three cases it can be in: it has its hit, none of the steps
hits it, or one of them is the first. The first two are inductions on the steps, and the third takes
the list apart at the first hit. -/

/-- The accumulator after some steps. -/
def gather (acc : Accumulator) (sensitive : Sensitive) (steps : List Step) : Accumulator :=
  steps.foldl (fun acc s => (acc.addStep sensitive s).1) acc

/-- The first step comes first. -/
@[simp] theorem gather_cons (acc : Accumulator) (sensitive : Sensitive) (s : Step)
    (steps : List Step) :
    acc.gather sensitive (s :: steps) = (acc.addStep sensitive s).1.gather sensitive steps := rfl

/-- Steps may be taken in two goes. -/
theorem gather_append (acc : Accumulator) (sensitive : Sensitive) (xs ys : List Step) :
    acc.gather sensitive (xs ++ ys) = (acc.gather sensitive xs).gather sensitive ys :=
  List.foldl_append

/-- A plane that has its hit keeps it. -/
theorem hit_gather_of_recorded {acc : Accumulator} {k : Fin 4}
    (hr : (acc.hit k).recorded = true) (sensitive : Sensitive) (steps : List Step) :
    (acc.gather sensitive steps).hit k = acc.hit k := by
  induction steps generalizing acc with
  | nil => rfl
  | cons s rest ih =>
    have hstep : (acc.addStep sensitive s).1.hit k = acc.hit k := by
      rw [hit_addStep, if_neg fun h => Bool.false_ne_true (h.2.symm.trans hr)]
    rw [gather_cons, ih (by rw [hstep]; exact hr), hstep]

/-- Steps that do not hit a plane leave it as it was. -/
theorem hit_gather_of_missed (acc : Accumulator) {sensitive : Sensitive} {k : Fin 4}
    {steps : List Step} (hmiss : ∀ s ∈ steps, ¬ sensitive.Hits k s) :
    (acc.gather sensitive steps).hit k = acc.hit k := by
  induction steps generalizing acc with
  | nil => rfl
  | cons s rest ih =>
    rw [gather_cons, ih _ fun r hr => hmiss r (List.mem_cons_of_mem s hr), hit_addStep,
      if_neg fun h => hmiss s List.mem_cons_self h.1]

/-- An empty plane takes the first hit among the steps. Those before it miss the plane, and those
behind it find it recorded. -/
theorem hit_gather_of_firstHit {acc : Accumulator} {sensitive : Sensitive} {k : Fin 4}
    {steps : List Step} {s : Step} (hempty : (acc.hit k).recorded = false)
    (hfirst : sensitive.FirstHit k steps s) :
    (acc.gather sensitive steps).hit k = ⟨s.position, s.momentum, true⟩ := by
  obtain ⟨hhit, before, after, rfl, hbefore⟩ := hfirst
  have hmissed := hit_gather_of_missed acc hbefore
  have htaken : ((acc.gather sensitive before).addStep sensitive s).1.hit k =
      ⟨s.position, s.momentum, true⟩ := by
    rw [hit_addStep, if_pos ⟨hhit, by rw [hmissed]; exact hempty⟩]
  rw [gather_append, gather_cons, hit_gather_of_recorded (by rw [htaken]), htaken]

/-- The sum is continued by the deposits in their order. -/
theorem caloEdep_gather (acc : Accumulator) (sensitive : Sensitive) (steps : List Step) :
    (acc.gather sensitive steps).caloEdep =
      (sensitive.deposits steps).foldl (· + ·) acc.caloEdep := by
  induction steps generalizing acc with
  | nil => rfl
  | cons s rest ih =>
    rw [gather_cons, ih, caloEdep_addStep]
    by_cases hd : sensitive.Deposits s <;> simp [Sensitive.deposits, hd]

/-- An event starts with empty planes. -/
@[simp] theorem hit_empty (k : Fin 4) : empty.hit k = Hit.none := by
  simp [empty, hit, Vector.get]

end Accumulator

/-! ## Events

`Ends` reads like the documentation of the reconstruction, without an accumulator. It is functional
and total, so it can stand on either side of an equivalence (`outcome_ofSteps_eq_iff`). -/

namespace Detector.Sensitive

/-- The first hit is the one that a search from the start finds. -/
theorem firstHit_iff_find? {sensitive : Sensitive} {plane : Fin 4} {steps : List Step} {s : Step} :
    sensitive.FirstHit plane steps s ↔
      steps.find? (fun r => sensitive.Hits plane r) = some s := by
  rw [List.find?_eq_some_iff_append]
  simp [FirstHit]

/-- A plane that some step hits has a first hit. -/
theorem exists_firstHit {sensitive : Sensitive} {plane : Fin 4} {steps : List Step}
    (h : ∃ s ∈ steps, sensitive.Hits plane s) : ∃ s, sensitive.FirstHit plane steps s := by
  obtain ⟨r, hr, hhit⟩ := h
  have hsome : (steps.find? fun s => sensitive.Hits plane s).isSome := by
    rw [List.find?_isSome]
    exact ⟨r, hr, decide_eq_true hhit⟩
  obtain ⟨s, hs⟩ := Option.isSome_iff_exists.1 hsome
  exact ⟨s, firstHit_iff_find?.2 hs⟩

end Detector.Sensitive

/-- How an event with these steps ends, said of the list of steps alone. -/
inductive Ends (sensitive : Sensitive) (steps : List Step) : Outcome → Prop
  /-- some plane was missed -/
  | incomplete (plane : Fin 4) (missed : ∀ s ∈ steps, ¬ sensitive.Hits plane s) :
      Ends sensitive steps .incomplete
  /-- the first hits of the planes before the target give no direction -/
  | incoming (first : Fin 4 → Step) (hits : ∀ k, sensitive.FirstHit k steps (first k))
      (before : ((first 1).position - (first 0).position).direction? = none) :
      Ends sensitive steps (.degenerate .incoming)
  /-- those before the target do, but those behind it do not -/
  | outgoing (first : Fin 4 → Step) (hits : ∀ k, sensitive.FirstHit k steps (first k))
      (before : ((first 1).position - (first 0).position).direction? ≠ none)
      (behind : ((first 3).position - (first 2).position).direction? = none) :
      Ends sensitive steps (.degenerate .outgoing)
  /-- both pairs of planes give a direction -/
  | accepted (first : Fin 4 → Step) (hits : ∀ k, sensitive.FirstHit k steps (first k))
      (incoming outgoing : Vector3)
      (before : ((first 1).position - (first 0).position).direction? = some incoming)
      (behind : ((first 3).position - (first 2).position).direction? = some outgoing) :
      Ends sensitive steps (.accepted
        { theta3d := spaceAngle incoming outgoing
          thetaX := projectedAngle incoming.x incoming.z outgoing.x outgoing.z
          thetaY := projectedAngle incoming.y incoming.z outgoing.y outgoing.z
          pIn := (first 1).momentum.norm
          pOut := (first 2).momentum.norm
          deltaP := (first 1).momentum.norm - (first 2).momentum.norm
          xTarget := ((first 1).position.x + (first 2).position.x) / 2.0
          yTarget := ((first 1).position.y + (first 2).position.y) / 2.0
          caloEdep := (sensitive.deposits steps).foldl (· + ·) 0.0 })

namespace Accumulator

/-- What an event with these steps has gathered at its end. -/
def ofSteps (sensitive : Sensitive) (steps : List Step) : Accumulator :=
  empty.gather sensitive steps

/-- The record of a plane is its first hit. -/
theorem hit_ofSteps_of_firstHit {sensitive : Sensitive} {k : Fin 4} {steps : List Step} {s : Step}
    (h : sensitive.FirstHit k steps s) :
    (ofSteps sensitive steps).hit k = ⟨s.position, s.momentum, true⟩ :=
  hit_gather_of_firstHit (by rw [hit_empty]; rfl) h

/-- A plane that was missed has no record. -/
theorem hit_ofSteps_of_missed {sensitive : Sensitive} {k : Fin 4} {steps : List Step}
    (h : ∀ s ∈ steps, ¬ sensitive.Hits k s) : (ofSteps sensitive steps).hit k = Hit.none := by
  rw [ofSteps, hit_gather_of_missed _ h, hit_empty]

/-- A plane is recorded exactly if a step hits it. -/
theorem recorded_ofSteps {sensitive : Sensitive} {k : Fin 4} {steps : List Step} :
    ((ofSteps sensitive steps).hit k).recorded = true ↔ ∃ s ∈ steps, sensitive.Hits k s := by
  constructor
  · intro hr
    by_contra hno
    rw [hit_ofSteps_of_missed fun s hs hhit => hno ⟨s, hs, hhit⟩] at hr
    exact Bool.false_ne_true hr
  · intro h
    obtain ⟨s, hs⟩ := Sensitive.exists_firstHit h
    rw [hit_ofSteps_of_firstHit hs]

/-- The sum starts from zero and has the deposits in their order. -/
theorem caloEdep_ofSteps (sensitive : Sensitive) (steps : List Step) :
    (ofSteps sensitive steps).caloEdep = (sensitive.deposits steps).foldl (· + ·) 0.0 :=
  caloEdep_gather empty sensitive steps

/-- All planes are recorded exactly if each is hit by a step. -/
theorem all_recorded_ofSteps {sensitive : Sensitive} {steps : List Step} :
    (ofSteps sensitive steps).hits.all Hit.recorded = true ↔
      ∀ k, ∃ s ∈ steps, sensitive.Hits k s := by
  rw [Vector.all_eq_true]
  constructor
  · intro h k
    exact recorded_ofSteps.1 (h k k.isLt)
  · intro h i hi
    exact recorded_ofSteps.2 (h ⟨i, hi⟩)

/-- With a first hit in every plane, the outcome is that of the hits. -/
theorem outcome_of_firstHits {sensitive : Sensitive} {steps : List Step} {first : Fin 4 → Step}
    (hits : ∀ k, sensitive.FirstHit k steps (first k)) :
    (ofSteps sensitive steps).outcome =
      reconstruct (Vector.ofFn fun k => ⟨(first k).position, (first k).momentum, true⟩)
        ((sensitive.deposits steps).foldl (· + ·) 0.0) := by
  have hhits : (ofSteps sensitive steps).hits =
      Vector.ofFn fun k => ⟨(first k).position, (first k).momentum, true⟩ := by
    apply Vector.ext
    intro i hi
    rw [Vector.getElem_ofFn]
    exact hit_ofSteps_of_firstHit (hits ⟨i, hi⟩)
  rw [outcome, hhits, caloEdep_ofSteps]

end Accumulator

/-- An event that ends in some way by its steps has that outcome. There is one case for each way, as
there is one branch for each in the reconstruction. -/
theorem Ends.outcome_eq {sensitive : Sensitive} {steps : List Step} {o : Outcome}
    (h : Ends sensitive steps o) : (Accumulator.ofSteps sensitive steps).outcome = o := by
  cases h with
  | incomplete plane missed =>
    have hnone : (Accumulator.ofSteps sensitive steps).hits.all Hit.recorded = false := by
      rw [Bool.eq_false_iff, ne_eq, Accumulator.all_recorded_ofSteps]
      intro hall
      obtain ⟨s, hs, hhit⟩ := hall plane
      exact missed s hs hhit
    exact reconstruct_of_missing hnone _
  | incoming first hits before =>
    rw [Accumulator.outcome_of_firstHits hits]
    simp [reconstruct, before]
  | outgoing first hits before behind =>
    obtain ⟨incoming, hin⟩ := Option.ne_none_iff_exists'.1 before
    rw [Accumulator.outcome_of_firstHits hits]
    simp [reconstruct, hin, behind]
  | accepted first hits incoming outgoing before behind =>
    rw [Accumulator.outcome_of_firstHits hits]
    simp [reconstruct, before, behind, Row.ofTrack]

/-- Every list of steps makes an event end in some way. -/
theorem exists_ends (sensitive : Sensitive) (steps : List Step) : ∃ o, Ends sensitive steps o := by
  by_cases hall : ∀ k, ∃ s ∈ steps, sensitive.Hits k s
  · choose first hits using fun k => Sensitive.exists_firstHit (hall k)
    cases hin : ((first 1).position - (first 0).position).direction? with
    | none => exact ⟨_, .incoming first hits hin⟩
    | some incoming =>
      cases hout : ((first 3).position - (first 2).position).direction? with
      | none => exact ⟨_, .outgoing first hits (by rw [hin]; exact Option.some_ne_none _) hout⟩
      | some outgoing => exact ⟨_, .accepted first hits incoming outgoing hin hout⟩
  · -- some plane is hit by no step
    simp only [not_forall, not_exists, not_and] at hall
    obtain ⟨plane, missed⟩ := hall
    exact ⟨_, .incomplete plane missed⟩

/-- An event has the outcome that its steps call for, and no other. -/
theorem outcome_ofSteps_eq_iff {sensitive : Sensitive} {steps : List Step} {o : Outcome} :
    (Accumulator.ofSteps sensitive steps).outcome = o ↔ Ends sensitive steps o := by
  constructor
  · rintro rfl
    obtain ⟨o, ho⟩ := exists_ends sensitive steps
    rwa [ho.outcome_eq]
  · exact Ends.outcome_eq

/-! ## The worker

A worker clears its accumulator when an event begins, and the steps only change the accumulator. So
the worker is taken along as a frame, and its other parts are said to be equal. -/

namespace Worker

variable {S : Type}

/-- The worker and the host after some steps. -/
def takeSteps (w : Worker S) (host : Host) (steps : List Step) : Worker S × Host :=
  steps.foldl (fun (w, host) s => let turn := w.step host s; (turn.worker, turn.host)) (w, host)

/-- The worker and the host after the begin of an event and its steps, when it is about to end. -/
def track (w : Worker S) (host : Host) (event : UInt64) (steps : List Step) : Worker S × Host :=
  let begun := w.beginEvent host event
  begun.worker.takeSteps begun.host steps

/-- Steps change nothing of a worker but its accumulator. -/
theorem takeSteps_worker (w : Worker S) (host : Host) (steps : List Step) :
    (w.takeSteps host steps).1 =
      { w with accumulator := w.accumulator.gather w.sensitive steps } := by
  induction steps generalizing w host with
  | nil => rfl
  | cons s rest ih =>
    have hcons : w.takeSteps host (s :: rest) =
        (w.step host s).worker.takeSteps (w.step host s).host rest := rfl
    rw [hcons, ih]
    rfl

/-- Steps are only reported: neither the files nor the counters change. -/
theorem takeSteps_host (w : Worker S) (host : Host) (steps : List Step) :
    (w.takeSteps host steps).2.files = host.files ∧
      (w.takeSteps host steps).2.metrics = host.metrics := by
  induction steps generalizing w host with
  | nil => exact ⟨rfl, rfl⟩
  | cons s rest ih =>
    exact ih (w.step host s).worker (w.step host s).host

/-- What earlier events have left in a worker plays no part in the next one. -/
theorem track_worker (w : Worker S) (host : Host) (event : UInt64) (steps : List Step) :
    (w.track host event steps).1 =
      { w with
        accumulator := .ofSteps w.sensitive steps
        current := some event } :=
  takeSteps_worker _ _ steps

end Worker

/-- **An event is what its steps make of it.** Whatever a worker has done before, and whichever
volumes stand for which part, the accumulator at the end of an event is determined by the steps of
the event: the planes hold their first hits, the sum is that of the deposits in order, a step that is
neither counts for nothing, and the outcome is the one called for by the steps. -/
theorem event_gathers_first_hits {S : Type} (w : Worker S) (host : Host) (event : UInt64)
    (steps : List Step) :
    let acc := (w.track host event steps).1.accumulator
    (∀ (w' : Worker S) (host' : Host) (event' : UInt64), w'.sensitive = w.sensitive →
      (w'.track host' event' steps).1.accumulator = acc) ∧
    (∀ k : Fin 4, (acc.hit k).recorded = true ↔ ∃ s ∈ steps, w.sensitive.Hits k s) ∧
    (∀ (k : Fin 4) (s : Step), w.sensitive.FirstHit k steps s →
      (acc.hit k).position = s.position ∧ (acc.hit k).momentum = s.momentum) ∧
    acc.caloEdep = (w.sensitive.deposits steps).foldl (· + ·) 0.0 ∧
    (∀ before s after, steps = before ++ s :: after →
      (∀ k : Fin 4, ¬ w.sensitive.Hits k s) → ¬ w.sensitive.Deposits s →
      (w.track host event (before ++ after)).1.accumulator = acc) ∧
    ∀ o : Outcome, acc.outcome = o ↔ Ends w.sensitive steps o := by
  -- the worker before the event comes in by its volumes alone
  have hacc : ∀ (w' : Worker S) (host' : Host) (event' : UInt64) (steps' : List Step),
      (w'.track host' event' steps').1.accumulator = .ofSteps w'.sensitive steps' := by
    intro w' host' event' steps'
    rw [Worker.track_worker]
  intro acc
  have hsteps : acc = .ofSteps w.sensitive steps := hacc w host event steps
  clear_value acc
  subst hsteps
  refine ⟨?_, fun k => Accumulator.recorded_ofSteps, ?_, Accumulator.caloEdep_ofSteps _ _, ?_,
    fun o => outcome_ofSteps_eq_iff⟩
  · intro w' host' event' hw
    rw [hacc, hw]
  · intro k s hs
    rw [Accumulator.hit_ofSteps_of_firstHit hs]
    exact ⟨rfl, rfl⟩
  · rintro before s after rfl hhit hdeposit
    rw [hacc, Accumulator.ofSteps, Accumulator.ofSteps, Accumulator.gather_append,
      Accumulator.gather_append, Accumulator.gather_cons,
      Accumulator.addStep_of_ignored _ hhit hdeposit]

/-- A detector whose first two planes are one volume never completes an event: the second of them
has no hit of its own, although a step in each of the volumes was taken. -/
theorem event_gathers_first_hits_shared_volume :
    let sensitive : Sensitive := ⟨#v[⟨1⟩, ⟨1⟩, ⟨2⟩, ⟨3⟩], ⟨5⟩, ⟨6⟩⟩
    let w := Crew.worker ⟨sensitive, Gun.default, true⟩ 0 MemorySink.fresh
    let steps := [1, 1, 2, 3, 6].map fun id => Step.mk ⟨id⟩ Vector3.zero Vector3.beamAxis 1.0
    (w.track (Host.fresh Files.empty) 0 steps).1.accumulator.outcome = .incomplete := by
  intro sensitive w steps
  have h := (event_gathers_first_hits w (Host.fresh Files.empty) 0 steps).2.2.2.2.2
  exact (h .incomplete).2 (.incomplete 1 (by decide))

end Telescope
