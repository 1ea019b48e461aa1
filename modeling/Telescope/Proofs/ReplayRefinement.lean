import Telescope.Proofs.Dealing
import Telescope.Proofs.Tally
import Telescope.Proofs.WorkerRun

/-!
# Replays with several workers

Dealing a trace to workers and merging what they return comes to the same as replaying the events
one by one:

* `endsAlone_iff`: an event has the outcome that it has by its steps, so it matters neither which
  worker replays it nor what the worker replayed before;
* `runAll_delivers`: every worker delivers the outcomes of its share;
* `merge_of_delivers`: the master puts these together, in the order of the workers;
* `execute_delivers`: both for a whole replay, with sinks of any reliable kind.

The counters of the merged summary do not depend on the number of workers. The sums of doubles may,
since rounding depends on the order of the additions; what they are is said exactly: the workers'
own sums, added up in the order of the workers.

Nothing is assumed about how the outcomes are distributed. With more workers than events some shares
are empty, and the sinks of their workers are opened and closed without a row.
-/

namespace Telescope

/-! ## Merging summaries

Counters are added in 64 bits, where the order does not matter and an overflow of a part is one of
the whole. Sums are doubles, where it does. -/

namespace Summary

/-- The summaries of some workers, merged in their order. -/
def mergeAll (summaries : List Summary) : Summary :=
  summaries.foldl merge empty

/-- A counter of a worker's summary counts its outcomes. -/
theorem get_ofOutcomes (outcomes : List Outcome) (c : Counter) :
    (ofOutcomes outcomes).get c = UInt64.ofNat (tally outcomes c) := by
  rw [ofOutcomes, get_foldl_record, get_empty, UInt64.zero_add]

/-- Merging adds the counters. The induction is on the workers, with any summary to start from. -/
theorem get_foldl_merge (s : Summary) (shares : List (List Outcome)) (c : Counter) :
    ((shares.map ofOutcomes).foldl merge s).get c =
      s.get c + UInt64.ofNat (tally shares.flatten c) := by
  induction shares generalizing s with
  | nil => simp [tally]
  | cons outcomes rest ih =>
    rw [List.map_cons, List.foldl_cons, ih, get_merge, get_ofOutcomes, List.flatten_cons,
      tally_append, UInt64.ofNat_add, UInt64.add_assoc]

/-- A counter of the merged summary counts the outcomes of all shares. -/
theorem get_mergeAll (shares : List (List Outcome)) (c : Counter) :
    (mergeAll (shares.map ofOutcomes)).get c = UInt64.ofNat (tally shares.flatten c) := by
  rw [mergeAll, get_foldl_merge, get_empty, UInt64.zero_add]

/-- The moments of a worker are those of the values in its accepted rows. -/
theorem moments_ofOutcomes (outcomes : List Outcome) (q : Quantity) :
    (ofOutcomes outcomes).moments q = Moments.ofValues (acceptedValues outcomes q) := by
  rw [ofOutcomes, moments_foldl_record, moments_empty, Moments.ofValues]

/-- Every quantity has one value for each accepted event. -/
theorem count_moments_ofOutcomes (outcomes : List Outcome) (q : Quantity) :
    ((ofOutcomes outcomes).moments q).count = UInt64.ofNat (tally outcomes .accepted) := by
  rw [moments_ofOutcomes, Moments.ofValues_eq, length_acceptedValues]

/-- Sums are added in the order of the workers, to what was there before. -/
theorem sums_foldl_merge (s : Summary) (summaries : List Summary) (q : Quantity) :
    ((summaries.foldl merge s).moments q).sum =
        (summaries.map fun t => (t.moments q).sum).foldl (· + ·) (s.moments q).sum ∧
      ((summaries.foldl merge s).moments q).squares =
        (summaries.map fun t => (t.moments q).squares).foldl (· + ·) (s.moments q).squares := by
  induction summaries generalizing s with
  | nil => exact ⟨rfl, rfl⟩
  | cons t rest ih =>
    have hrest := ih (s.merge t)
    rw [moments_merge] at hrest
    exact hrest

/-- So are the numbers of values. -/
theorem count_moments_foldl_merge (s : Summary) (shares : List (List Outcome)) (q : Quantity) :
    (((shares.map ofOutcomes).foldl merge s).moments q).count =
      (s.moments q).count + UInt64.ofNat (tally shares.flatten .accepted) := by
  induction shares generalizing s with
  | nil => simp [tally]
  | cons outcomes rest ih =>
    rw [List.map_cons, List.foldl_cons, ih, moments_merge, Moments.count_merge,
      count_moments_ofOutcomes, List.flatten_cons, tally_append, UInt64.ofNat_add, UInt64.add_assoc]

/-- Every quantity of the merged summary has one value for each accepted event. -/
theorem count_moments_mergeAll (shares : List (List Outcome)) (q : Quantity) :
    ((mergeAll (shares.map ofOutcomes)).moments q).count =
      UInt64.ofNat (tally shares.flatten .accepted) := by
  rw [mergeAll, count_moments_foldl_merge, moments_empty, Moments.empty, UInt64.zero_add]

/-- The sums of the merged summary add up the workers' sums in the order of the workers. -/
theorem sums_mergeAll (shares : List (List Outcome)) (q : Quantity) :
    ((mergeAll (shares.map ofOutcomes)).moments q).sum =
        (shares.map fun outcomes => (acceptedValues outcomes q).foldl (· + ·) 0.0).foldl (· + ·)
          0.0 ∧
      ((mergeAll (shares.map ofOutcomes)).moments q).squares =
        (shares.map fun outcomes =>
          ((acceptedValues outcomes q).map fun v => v * v).foldl (· + ·) 0.0).foldl (· + ·) 0.0 := by
  have h := sums_foldl_merge empty (shares.map ofOutcomes) q
  simp only [List.map_map, Function.comp_def, moments_ofOutcomes, Moments.ofValues_eq,
    moments_empty] at h
  exact h

end Summary

namespace Master

/-- The master has the total of the summaries that it was given. -/
theorem total_foldl_merge {S : Type} (master : Master) (outcomes : List (Summary × S)) :
    (outcomes.foldl (fun master o => master.merge o.1) master).total =
      (outcomes.map Prod.fst).foldl Summary.merge master.total := by
  induction outcomes generalizing master with
  | nil => rfl
  | cons o rest ih => exact ih (master.merge o.1)

end Master

namespace Replay

/-! ## Events on their own

What an event comes to is told by replaying it, with a worker that was made for it. This is the
standard that the outcomes of a longer replay are compared with. -/

/-- What is returned for an event by a worker that replays this event and nothing else: it is new,
begins a run, begins the event, takes the steps and ends the event. -/
def endAlone (layout : Detector.Layout) (gun : Gun) (event : UInt64) (steps : List Step) :
    Except SinkError Outcome :=
  let fresh := Crew.worker ⟨layout.sensitive, gun, true⟩ 0 MemorySink.fresh
  let begun := fresh.beginRun (Host.fresh Files.empty)
  let tracked := begun.worker.track begun.host event steps
  (tracked.1.endEvent tracked.2).result

/-- The outcome of an event of a trace that is replayed alone. -/
def EndsAlone (layout : Detector.Layout) (gun : Gun) (e : TraceEvent) (o : Outcome) : Prop :=
  ∃ steps, e.place layout = .ok steps ∧ endAlone layout gun e.event steps = .ok o

/-- A new worker answers with the outcome of the steps. It has nothing else to go by. -/
theorem endAlone_eq (layout : Detector.Layout) (gun : Gun) (event : UInt64) (steps : List Step) :
    endAlone layout gun event steps = .ok (Accumulator.ofSteps layout.sensitive steps).outcome := by
  let crew : Crew := ⟨layout.sensitive, gun, true⟩
  let fresh := crew.worker 0 MemorySink.fresh
  let begun := fresh.beginRun (Host.fresh Files.empty)
  let tracked := begun.worker.track begun.host event steps
  have hbegun : begun.worker.Holds crew [] :=
    (Worker.holds_beginRun (w := fresh) rfl rfl MemorySink.closed_fresh _).2
  have hacc : tracked.1.accumulator = .ofSteps layout.sensitive steps := by
    rw [Worker.track_worker]
    rfl
  have hend := ((hbegun.track begun.host event steps).endEvent rfl tracked.2).1
  rw [hacc] at hend
  exact hend

/-- So an event on its own ends as its steps make it end. -/
theorem endsAlone_iff {layout : Detector.Layout} {gun : Gun} {e : TraceEvent} {o : Outcome} :
    EndsAlone layout gun e o ↔ e.EndsIn layout o := by
  refine exists_congr fun steps => and_congr_right fun _ => ?_
  rw [endAlone_eq, Except.ok.injEq, outcome_ofSteps_eq_iff]

/-- What an event on its own comes to is what its steps come to. -/
theorem EndsAlone.outcome_eq {layout : Detector.Layout} {gun : Gun} {e : TraceEvent} {o : Outcome}
    (h : EndsAlone layout gun e o) :
    (e.place layout).map (fun steps => (Accumulator.ofSteps layout.sensitive steps).outcome) =
      .ok o := by
  obtain ⟨steps, hplace, hend⟩ := h
  rw [endAlone_eq] at hend
  rw [hplace, ← Except.ok.inj hend]
  rfl

/-- The events of a trace whose steps all have volumes end in some way. -/
theorem exists_outcomes {layout : Detector.Layout} {trace : Trace}
    (hplaced : ∀ e ∈ trace, ∃ steps, e.place layout = .ok steps) :
    ∃ outcomes, List.Forall₂ (TraceEvent.EndsIn layout) trace outcomes := by
  induction trace with
  | nil => exact ⟨[], .nil⟩
  | cons e rest ih =>
    obtain ⟨steps, hsteps⟩ := hplaced e List.mem_cons_self
    obtain ⟨o, ho⟩ := exists_ends layout.sensitive steps
    obtain ⟨outcomes, hrest⟩ := ih fun e' he' => hplaced e' (List.mem_cons_of_mem e he')
    exact ⟨o :: outcomes, .cons ⟨steps, hsteps, ho⟩ hrest⟩

/-! ## All workers

The workers run one after the other here, each with the events of its share. That the order does not
matter is shown for threads, in the module about schedules. -/

section

variable {S : Type} [Sink S] [ReliableSink S]

/-- Every worker delivers the outcomes of its share. The induction is on the workers, and none
depends on the host that the others have left. -/
theorem runAll_delivers (crew : Crew) {layout : Detector.Layout}
    (hcrew : crew.sensitive = layout.sensitive) {makeSink : Nat → S}
    (hclosed : ∀ number, ∃ rows, ReliableSink.Closed (makeSink number) rows) {trace : Trace}
    {outcomes : List Outcome} (hends : List.Forall₂ (TraceEvent.EndsIn layout) trace outcomes)
    (workers : Nat) (numbers : List Nat) (host : Host) :
    List.Forall₂ (fun number result => Delivers (share workers number outcomes) result) numbers
      (runAll layout crew makeSink workers trace host numbers).2 := by
  induction numbers generalizing host with
  | nil => exact .nil
  | cons number rest ih =>
    obtain ⟨rows, hsink⟩ := hclosed number
    exact .cons
      (runOrRelease_delivers hcrew number hsink (forall₂_share hends workers number) host)
      (ih _)

/-- When every worker delivers, the merged summary is that of all shares, and the sinks come back
closed in the order of the workers. -/
theorem merge_of_delivers {shares : List (List Outcome)}
    {results : List (Except ReplayError (Summary × S))} (h : List.Forall₂ Delivers shares results)
    (host : Host) :
    ∃ sinks : List S,
      List.Forall₂ (fun outcomes sink => ReliableSink.Closed sink (acceptedRows outcomes)) shares
        sinks ∧
      (merge host results).2 = .ok ⟨.mergeAll (shares.map Summary.ofOutcomes), sinks⟩ := by
  have hpairs : ∃ pairs : List (Summary × S), results.mapM id = .ok pairs ∧
      pairs.map Prod.fst = shares.map Summary.ofOutcomes ∧
      List.Forall₂ (fun outcomes sink => ReliableSink.Closed sink (acceptedRows outcomes)) shares
        (pairs.map Prod.snd) := by
    induction h with
    | nil => exact ⟨[], rfl, rfl, .nil⟩
    | @cons outcomes result _ rest hfirst _ ih =>
      obtain ⟨sink, rfl, hsink⟩ := hfirst
      obtain ⟨pairs, hmap, hsummaries, hsinks⟩ := ih
      refine ⟨(.ofOutcomes outcomes, sink) :: pairs, ?_, ?_, .cons hsink hsinks⟩
      · rw [List.mapM_cons, hmap]
        rfl
      · rw [List.map_cons, List.map_cons, hsummaries]
  obtain ⟨pairs, hmap, hsummaries, hsinks⟩ := hpairs
  refine ⟨pairs.map Prod.snd, hsinks, ?_⟩
  simp only [merge, hmap, Master.total_foldl_merge, hsummaries]
  rfl

/-- A replay of events that all end succeeds, whatever kind of reliable sink is used. -/
theorem execute_delivers {layout : Detector.Layout} {makeSink : Nat → S}
    (hclosed : ∀ number, ∃ rows, ReliableSink.Closed (makeSink number) rows) {trace : Trace}
    {outcomes : List Outcome} (hends : List.Forall₂ (TraceEvent.EndsIn layout) trace outcomes)
    (workers : Nat) (gun : Gun) (files : Files) :
    let shares := (List.range (max workers 1)).map fun w => share (max workers 1) w outcomes
    ∃ sinks : List S,
      List.Forall₂ (fun outcomes sink => ReliableSink.Closed sink (acceptedRows outcomes)) shares
        sinks ∧
      (execute workers layout gun trace makeSink files).2 =
        .ok ⟨.mergeAll (shares.map Summary.ofOutcomes), sinks⟩ := by
  have hall := runAll_delivers ⟨layout.sensitive, gun, true⟩ rfl hclosed hends (max workers 1)
    (List.range (max workers 1)) (Host.fresh files)
  exact merge_of_delivers (List.forall₂_map_left_iff.2 hall) _

end

/-! ## Sinks in memory

A sink in memory is determined by its rows, so there what a replay returns can be given in full. -/

/-- The sinks are determined by the shares. -/
theorem sinks_eq_of_closed {shares : List (List Outcome)} {sinks : List MemorySink}
    (h : List.Forall₂ (fun outcomes sink => ReliableSink.Closed sink (acceptedRows outcomes)) shares
      sinks) :
    sinks = shares.map fun outcomes => MemorySink.ofRows (acceptedRows outcomes) false := by
  induction h with
  | nil => rfl
  | cons hfirst _ ih => rw [List.map_cons, ← ih, ← MemorySink.closed_iff.1 hfirst]

/-- The records of the sinks of some shares are those of the accepted rows of all shares. -/
theorem flatMap_records (shares : List (List Outcome)) :
    ((shares.map fun outcomes => MemorySink.ofRows (acceptedRows outcomes) false).flatMap
      fun sink => sink.records.toList) =
      (acceptedRows shares.flatten).map Table.Record.ofRow := by
  induction shares with
  | nil => rfl
  | cons outcomes rest ih =>
    rw [List.map_cons, List.flatMap_cons, ih, List.flatten_cons, acceptedRows, acceptedRows,
      acceptedRows, List.filterMap_append, List.map_append]
    rfl

/-- A replay of events whose steps all have volumes succeeds, and counts them all. The count is that
of the events, in the arithmetic of the counters. -/
theorem exists_result {layout : Detector.Layout} {trace : Trace}
    (hplaced : ∀ e ∈ trace, ∃ steps, e.place layout = .ok steps) (workers : Nat) (gun : Gun)
    (files : Files) :
    ∃ result, (execute workers layout gun trace (fun _ => MemorySink.fresh) files).2 = .ok result ∧
      result.sinks.length = max workers 1 ∧
      result.summary.events = UInt64.ofNat trace.length := by
  have hclosed : ∀ number : Nat, ∃ rows,
      ReliableSink.Closed ((fun _ => MemorySink.fresh) number) rows :=
    fun _ => ⟨[], MemorySink.closed_fresh⟩
  obtain ⟨outcomes, hends⟩ := exists_outcomes hplaced
  obtain ⟨sinks, hsinks, hresult⟩ := execute_delivers hclosed hends workers gun files
  refine ⟨_, hresult, ?_, ?_⟩
  · rw [← hsinks.length_eq, List.length_map, List.length_range]
  · have hperm := flatMap_share_perm (Nat.lt_of_lt_of_le Nat.one_pos (Nat.le_max_right workers 1))
      outcomes
    have hevents := Summary.get_mergeAll
      ((List.range (max workers 1)).map fun w => share (max workers 1) w outcomes) .processed
    rw [← List.flatMap_def, tally_perm hperm, tally_processed, ← hends.length_eq] at hevents
    exact hevents

/-- **A replay with several workers refines the sequential one.** For any number of workers and any
trace whose steps all have volumes, with outcomes those of the events replayed alone:

* the replay succeeds, and worker `w` of `n` comes back with a closed sink that has, in the order of
  the trace, the records of the accepted rows of the events whose place leaves the rest `w`;
* all sinks together have the records of the replay with one worker, rearranged;
* the merged counters are those of all events, whatever the number of workers;
* the merged sums are the workers' own sums from zero, added up from zero in their order. -/
theorem execute_refines_sequential (workers : Nat) (layout : Detector.Layout) (gun : Gun)
    (trace : Trace) (files : Files)
    (hplaced : ∀ e ∈ trace, ∃ steps, e.place layout = .ok steps) :
    let n := max workers 1
    ∃ (outcomes : List Outcome) (result single : Result MemorySink),
      List.Forall₂ (EndsAlone layout gun) trace outcomes ∧
      (execute workers layout gun trace (fun _ => MemorySink.fresh) files).2 = .ok result ∧
      (execute 1 layout gun trace (fun _ => MemorySink.fresh) files).2 = .ok single ∧
      result.sinks = ((List.range n).map fun w =>
        ⟨((acceptedRows (atRest n w outcomes)).map Table.Record.ofRow).toArray, false⟩) ∧
      (result.sinks.flatMap fun sink => sink.records.toList).Perm
        (single.sinks.flatMap fun sink => sink.records.toList) ∧
      (∀ c, result.summary.get c = UInt64.ofNat (tally outcomes c)) ∧
      result.summary.events = UInt64.ofNat trace.length ∧
      ∀ q,
        (result.summary.moments q).count = UInt64.ofNat (tally outcomes .accepted) ∧
        (result.summary.moments q).sum = ((List.range n).map fun w =>
          (acceptedValues (atRest n w outcomes) q).foldl (· + ·) 0.0).foldl (· + ·) 0.0 ∧
        (result.summary.moments q).squares = ((List.range n).map fun w =>
          ((acceptedValues (atRest n w outcomes) q).map fun v => v * v).foldl (· + ·) 0.0).foldl
            (· + ·) 0.0 := by
  intro n
  have hn : 0 < n := Nat.lt_of_lt_of_le Nat.one_pos (Nat.le_max_right workers 1)
  have hclosed : ∀ number : Nat, ∃ rows,
      ReliableSink.Closed ((fun _ => MemorySink.fresh) number) rows :=
    fun _ => ⟨[], MemorySink.closed_fresh⟩
  obtain ⟨outcomes, hends⟩ := exists_outcomes hplaced
  have hshares : ∀ m : Nat, ((List.range m).map fun w => share m w outcomes) =
      (List.range m).map fun w => atRest m w outcomes :=
    fun m => List.map_congr_left fun w hw => share_eq_atRest (List.mem_range.1 hw) outcomes
  have hperm : ∀ m : Nat, 0 < m →
      (((List.range m).map fun w => atRest m w outcomes).flatten).Perm outcomes := by
    intro m hm
    rw [← hshares, ← List.flatMap_def]
    exact flatMap_share_perm hm outcomes
  -- the same replay twice: with all workers, and with one
  obtain ⟨sinks, hsinks, hmany⟩ := execute_delivers hclosed hends workers gun files
  obtain ⟨sinks₁, hsinks₁, hone⟩ := execute_delivers hclosed hends 1 gun files
  rw [hshares] at hsinks hmany hsinks₁ hone
  rw [sinks_eq_of_closed hsinks] at hmany
  rw [sinks_eq_of_closed hsinks₁] at hone
  refine ⟨outcomes, _, _, hends.imp fun e o => endsAlone_iff.2, hmany, hone, ?_, ?_, ?_, ?_, ?_⟩
  · exact List.map_map
  · -- both are the records of the accepted rows of some arrangement of the outcomes
    rw [flatMap_records, flatMap_records]
    refine List.Perm.map _ (List.Perm.filterMap _ ?_)
    exact (hperm n hn).trans (hperm 1 Nat.one_pos).symm
  · intro c
    rw [Summary.get_mergeAll, tally_perm (hperm n hn)]
  · have hevents := Summary.get_mergeAll ((List.range n).map fun w => atRest n w outcomes) .processed
    rw [tally_perm (hperm n hn), tally_processed, ← hends.length_eq] at hevents
    exact hevents
  · intro q
    obtain ⟨hsum, hsquares⟩ :=
      Summary.sums_mergeAll ((List.range n).map fun w => atRest n w outcomes) q
    refine ⟨?_, hsum.trans (congrArg _ List.map_map), hsquares.trans (congrArg _ List.map_map)⟩
    rw [Summary.count_moments_mergeAll, tally_perm (hperm n hn)]

/-- An event with a step on the beam axis in each of these planes of the default detector. -/
def crossing (number : UInt64) (planes : List (Fin 4)) : TraceEvent :=
  ⟨number, planes.map fun plane => ⟨some (Detector.Part.tracker plane).name,
    (Detector.Part.tracker plane).center, ⟨0.0, 0.0, 3000.0⟩, 0.0⟩⟩

/-- Four events for two workers: of the events of worker 0 the second is lost behind the target, and
both events of worker 1 are complete. -/
theorem execute_refines_sequential_two_workers :
    let layout := (Detector.Layout.build .default .standard).1
    let whole := List.finRange 4
    let trace : Trace := [crossing 7 whole, crossing 8 whole, crossing 9 [0, 1], crossing 10 whole]
    ∃ result, (execute 2 layout .default trace (fun _ => MemorySink.fresh) .empty).2 = .ok result ∧
      result.sinks.map (fun sink => sink.records.size) = [1, 2] ∧
      result.summary.events = 4 ∧ result.summary.accepted = 3 := by
  intro layout whole trace
  have hplaced : ∀ e ∈ trace, ∃ steps, e.place layout = .ok steps := by
    intro e he
    simp only [trace, List.mem_cons, List.not_mem_nil, or_false] at he
    obtain rfl | rfl | rfl | rfl := he <;> exact ⟨_, rfl⟩
  obtain ⟨outcomes, result, -, hends, hresult, -, hsinks, -, hcounters, hevents, -⟩ :=
    execute_refines_sequential 2 layout .default trace .empty hplaced
  have hkinds : trace.map (fun e => ((e.place layout).map fun steps =>
      (Accumulator.ofSteps layout.sensitive steps).outcome).toOption.map fun o => o.row?.isSome) =
      [some true, some true, some false, some true] := by decide +kernel
  simp only [trace, List.forall₂_cons_left_iff, List.forall₂_nil_left_iff] at hends
  obtain ⟨o₁, _, h₁, ⟨o₂, _, h₂, ⟨o₃, _, h₃, ⟨o₄, _, h₄, rfl, rfl⟩, rfl⟩, rfl⟩, rfl⟩ := hends
  simp only [trace, List.map_cons, List.map_nil, h₁.outcome_eq, h₂.outcome_eq, h₃.outcome_eq,
    h₄.outcome_eq, List.cons.injEq] at hkinds
  obtain ⟨hrow₁, hrow₂, hrow₃, hrow₄, -⟩ := hkinds
  have hsome : ∀ {o : Outcome}, some o.row?.isSome = some true → ∃ row, o.row? = some row :=
    fun h => Option.isSome_iff_exists.1 (Option.some.inj h)
  obtain ⟨row₁, hrow₁⟩ : ∃ row, o₁.row? = some row := hsome hrow₁
  obtain ⟨row₂, hrow₂⟩ : ∃ row, o₂.row? = some row := hsome hrow₂
  have hnone : o₃.row? = none :=
    Option.not_isSome_iff_eq_none.1 (Bool.eq_false_iff.1 (Option.some.inj hrow₃))
  obtain ⟨row₄, hrow₄⟩ : ∃ row, o₄.row? = some row := hsome hrow₄
  -- worker 0 has the places 0 and 2, worker 1 has the places 1 and 3
  have hfirst : acceptedRows (atRest 2 0 [o₁, o₂, o₃, o₄]) = [row₁] := by
    simp [atRest, acceptedRows, hrow₁, hnone]
  have hsecond : acceptedRows (atRest 2 1 [o₁, o₂, o₃, o₄]) = [row₂, row₄] := by
    simp [atRest, acceptedRows, hrow₂, hrow₄]
  refine ⟨result, hresult, ?_, hevents, ?_⟩
  · rw [hsinks]
    simp [List.range_succ, hfirst, hsecond]
  · refine (hcounters .accepted).trans ?_
    rw [tally_accepted]
    simp [hrow₁, hrow₂, hnone, hrow₄]

end Replay

end Telescope
