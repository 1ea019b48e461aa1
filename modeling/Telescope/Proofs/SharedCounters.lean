import Mathlib.Algebra.Order.BigOperators.Group.List
import Mathlib.Algebra.Order.Group.Nat
import Telescope.Proofs.Interleaving
import Telescope.Proofs.ReplayRefinement

/-!
# The shared counters of interleaved workers

The events of a run are counted twice, by every worker in its own summary and by all workers in the
shared counters. At the end of an event the summary comes first, so between the two a thread is ahead
of the counters by one event. The invariant (`Joint.Sound`) says where every outcome is: in the
counters, in flight, or still to come.

* `Thread.At` ties the phase of a thread to its `Progress`, one case for each phase; `At.step` is the
  step lemma, again one case for each phase.
* `Joint.Sound.step` splits the threads at the one that moves; `Joint.Sound.play` is the induction over
  the schedule.
* The counters then have the tally of what is published (`Joint.Sound.counters`), and the summaries
  that of what is published or in flight.

The counters have 64 bits and are compared as numbers, so the trace must not be longer than they can
count. Where they are only said to be equal, no such bound is needed.
-/

namespace Telescope

/-! ## Calls of a worker and the shared counters -/

namespace Worker

variable {S : Type} [Sink S]

/-- What a worker does on its own at the end of an event adds the outcome to what it holds, and
leaves the shared counters alone. -/
theorem Holds.settle [ReliableSink S] {crew : Crew} {w : Worker S} {outcomes : List Outcome}
    {o : Outcome} (h : w.Holds crew outcomes) (ho : w.accumulator.outcome = o) (host : Host) :
    (w.settle host).result = .ok o ∧ (w.settle host).worker.Holds crew (outcomes ++ [o]) ∧
      (w.settle host).host.metrics = host.metrics := by
  have halone : Holds { crew with counted := false } outcomes { w with counted := false } :=
    ⟨h.sensitive, rfl, h.sink, h.summary⟩
  obtain ⟨hok, hnext, hmetrics⟩ := halone.endEvent ho host
  exact ⟨hok, ⟨hnext.sensitive, h.counted, hnext.sink, hnext.summary⟩, hmetrics⟩

end Worker

/-! ## The progress of a thread

Outcomes move in one direction: from still to come, over in flight, to published. A step moves one
at most, or none, and never changes the list that the three make up (`Progress.all`). -/

/-- Where the outcomes of a thread's events are. -/
structure Progress where
  /-- in the shared counters -/
  published : List Outcome
  /-- in the summary of the worker, but not in the shared counters -/
  inFlight : Option Outcome
  /-- still to come -/
  todo : List Outcome

namespace Progress

/-- The outcomes in the summary of the worker. -/
def counted (p : Progress) : List Outcome := p.published ++ p.inFlight.toList

/-- The outcomes of the whole share. -/
def all (p : Progress) : List Outcome := p.counted ++ p.todo

end Progress

namespace Thread

variable {S : Type} [Sink S] [ReliableSink S]

/-- The progress of a thread, phase by phase. The outcome of an event under way is known from its
steps, those that are taken and those that are not. -/
inductive At (crew : Crew) (layout : Detector.Layout) : Thread S → Progress → Prop
  | waiting {w : Worker S} {share : Trace} {rows : List Row} {todo : List Outcome}
      (sensitive : w.sensitive = crew.sensitive) (counted : w.counted = crew.counted)
      (summary : w.summary = Summary.empty) (closed : ReliableSink.Closed w.sink rows)
      (ends : List.Forall₂ (TraceEvent.EndsIn layout) share todo) :
      At crew layout ⟨w, .waiting, share⟩ ⟨[], none, todo⟩
  | idle {w : Worker S} {rest : Trace} {published todo : List Outcome}
      (holds : w.Holds crew published)
      (ends : List.Forall₂ (TraceEvent.EndsIn layout) rest todo) :
      At crew layout ⟨w, .idle, rest⟩ ⟨published, none, todo⟩
  | tracking {w : Worker S} {e : TraceEvent} {steps : List Step} {rest : Trace} {o : Outcome}
      {published todo : List Outcome} (holds : w.Holds crew published)
      (outcome : (w.accumulator.gather w.sensitive steps).outcome = o)
      (ends : List.Forall₂ (TraceEvent.EndsIn layout) rest todo) :
      At crew layout ⟨w, .tracking e steps, rest⟩ ⟨published, none, o :: todo⟩
  | settled {w : Worker S} {rest : Trace} {o : Outcome} {published todo : List Outcome}
      (holds : w.Holds crew (published ++ [o]))
      (ends : List.Forall₂ (TraceEvent.EndsIn layout) rest todo) :
      At crew layout ⟨w, .settled o, rest⟩ ⟨published, some o, todo⟩
  | ended {w : Worker S} {rest : Trace} {published : List Outcome}
      (summary : w.summary = Summary.ofOutcomes published)
      (closed : ReliableSink.Closed w.sink (acceptedRows published)) :
      At crew layout ⟨w, .ended (.ok (Summary.ofOutcomes published)), rest⟩ ⟨published, none, []⟩

variable {crew : Crew} {layout : Detector.Layout}

/-- The summary of a thread has the outcomes that are published or in flight. For one that has ended
this is also what it returns. -/
theorem At.summary_eq {t : Thread S} {p : Progress} (h : At crew layout t p) :
    t.worker.summary = Summary.ofOutcomes p.counted := by
  cases h with
  | waiting _ _ summary => exact summary
  | idle holds => simpa [Progress.counted] using holds.summary
  | tracking holds => simpa [Progress.counted] using holds.summary
  | settled holds => exact holds.summary
  | ended summary => simpa [Progress.counted] using summary

/-- **A step of a thread.** No outcome gets lost, and the shared counters grow by those that are
published in the step. -/
theorem At.step (hcrew : crew.sensitive = layout.sensitive) (hcounted : crew.counted = true)
    {t : Thread S} {p : Progress} (h : At crew layout t p) (host : Host) :
    ∃ (q : Progress) (news : List Outcome),
      At crew layout (t.step layout host).1 q ∧ q.all = p.all ∧
      q.published = p.published ++ news ∧
      (t.step layout host).2.metrics = news.foldl Metrics.count host.metrics := by
  cases h with
  | @waiting w share rows todo sensitive counted _ closed ends =>
    obtain ⟨hok, hheld⟩ := Worker.holds_beginRun sensitive counted closed host
    simp only [Thread.step, resume, hok, Except.mapError]
    exact ⟨_, [], .idle hheld ends, rfl, rfl, rfl⟩
  -- the next outcome is fixed here, when the steps of the event are known and none is taken yet
  | @idle w rest published todo holds ends =>
    cases ends with
    | nil =>
      obtain ⟨hok, hclosed, hsummary⟩ := holds.endRun host
      simp only [Thread.step, resume, hok, Except.mapError]
      exact ⟨_, [], .ended hsummary hclosed, rfl, (List.append_nil _).symm, w.metrics_endRun host⟩
    | @cons e o rest todo he ends =>
      obtain ⟨steps, hsteps, hends⟩ := he
      simp only [Thread.step, hsteps]
      have hheld : (w.beginEvent host e.event).worker.Holds crew published :=
        ⟨holds.sensitive, holds.counted, holds.sink, holds.summary⟩
      have ho : ((w.beginEvent host e.event).worker.accumulator.gather
          (w.beginEvent host e.event).worker.sensitive steps).outcome = o := by
        rw [hheld.sensitive, hcrew]
        exact hends.outcome_eq
      exact ⟨_, [], .tracking hheld ho ends, rfl, (List.append_nil _).symm, rfl⟩
  | @tracking w e steps rest o published todo holds outcome ends =>
    cases steps with
    | cons s steps =>
      have hheld : (w.step host s).worker.Holds crew published :=
        ⟨holds.sensitive, holds.counted, holds.sink, holds.summary⟩
      exact ⟨_, [], .tracking hheld outcome ends, rfl, (List.append_nil _).symm, rfl⟩
    | nil =>
      obtain ⟨hok, hheld, hmetrics⟩ := holds.settle outcome host
      simp only [Thread.step, resume, hok, Except.mapError]
      refine ⟨_, [], .settled hheld ends, ?_, (List.append_nil _).symm, hmetrics⟩
      simp [Progress.all, Progress.counted]
  -- the only step that publishes
  | @settled w rest o published todo holds ends =>
    refine ⟨_, [o], .idle holds ends, ?_, rfl, ?_⟩
    · simp [Progress.all, Progress.counted]
    · simp only [Thread.step, Worker.publish, holds.counted, hcounted]
      rfl
  | ended summary closed =>
    exact ⟨_, [], .ended summary closed, rfl, (List.append_nil _).symm, rfl⟩

/-- A thread that has ended returns the outcomes of its whole share, and all are published. -/
theorem At.delivers {t : Thread S} {p : Progress} (h : At crew layout t p)
    {result : Except ReplayError (Summary × S)} (hresult : t.result? = some result) :
    Replay.Delivers p.all result ∧ p.published = p.all := by
  cases h with
  | @ended w rest published summary closed =>
    obtain rfl := Option.some.inj hresult
    have hall : (⟨published, none, []⟩ : Progress).all = published := by
      simp [Progress.all, Progress.counted]
    rw [hall]
    exact ⟨⟨w.sink, rfl, closed⟩, rfl⟩
  | waiting => cases hresult
  | idle => cases hresult
  | tracking => cases hresult
  | settled => cases hresult

end Thread

/-! ## All threads

The counters are one number for all threads. Which threads they have come from cannot be told by it,
but the invariant knows. -/

/-- The outcomes in the shared counters, thread by thread. -/
def published (progress : List Progress) : List Outcome :=
  progress.flatMap Progress.published

/-- What the counters can have counted at most is in the summaries. -/
theorem tally_published_le (progress : List Progress) (c : Counter) :
    tally (published progress) c ≤ (progress.map fun p => tally p.counted c).sum := by
  induction progress with
  | nil => exact Nat.le_refl _
  | cons p rest ih =>
    rw [published, List.flatMap_cons, tally_append, List.map_cons, List.sum_cons, Progress.counted,
      tally_append]
    exact Nat.add_le_add (Nat.le_add_right _ _) ih

/-- What is related to a list is split where the list is. -/
theorem forall₂_split {α β : Type} {R : α → β → Prop} {before after : List α} {a : α} {ys : List β}
    (h : List.Forall₂ R (before ++ a :: after) ys) :
    ∃ ys₁ y ys₂, ys = ys₁ ++ y :: ys₂ ∧ List.Forall₂ R before ys₁ ∧ R a y ∧
      List.Forall₂ R after ys₂ := by
  induction before generalizing ys with
  | nil =>
    cases h with
    | cons hfirst hrest => exact ⟨[], _, _, rfl, .nil, hfirst, hrest⟩
  | cons x before ih =>
    cases h with
    | cons hfirst hrest =>
      obtain ⟨ys₁, y, ys₂, rfl, h₁, hy, h₂⟩ := ih hrest
      exact ⟨_ :: ys₁, y, ys₂, rfl, .cons hfirst h₁, hy, h₂⟩

namespace Joint

variable {S : Type} [Sink S] [ReliableSink S] {crew : Crew} {layout : Detector.Layout}

/-- The threads have come this far, and the counters have the tally of what is published. -/
structure Sound (crew : Crew) (layout : Detector.Layout) (shares : List (List Outcome))
    (progress : List Progress) (j : Joint S) : Prop where
  /-- every thread is where its progress says -/
  threads : List.Forall₂ (Thread.At crew layout) j.threads progress
  /-- the outcomes of the shares, wherever they are -/
  all : progress.map Progress.all = shares
  /-- the shared counters -/
  counters : ∀ c, j.host.metrics.get c = UInt64.ofNat (tally (published progress) c)

/-- **A step of any thread** keeps the invariant. The other threads are as they were, and the
counters have gone on by what the one has published. -/
theorem Sound.step (hcrew : crew.sensitive = layout.sensitive) (hcounted : crew.counted = true)
    {shares : List (List Outcome)} {progress : List Progress} {j : Joint S}
    (h : j.Sound crew layout shares progress) (number : Nat) :
    ∃ progress', (j.step layout number).Sound crew layout shares progress' := by
  obtain ⟨threads, host⟩ := j
  cases hget : threads[number]? with
  | none =>
    -- there is no such thread
    simp only [Joint.step, hget]
    exact ⟨progress, h⟩
  | some t =>
    obtain ⟨hlt, rfl⟩ := List.getElem?_eq_some_iff.1 hget
    obtain ⟨before, after, hthreads, rfl⟩ : ∃ before after,
        threads = before ++ threads[number] :: after ∧ number = before.length := by
      refine ⟨threads.take number, threads.drop (number + 1), ?_, ?_⟩
      · rw [List.getElem_cons_drop, List.take_append_drop]
      · rw [List.length_take, Nat.min_eq_left hlt.le]
    generalize threads[before.length] = t at *
    subst hthreads
    obtain ⟨ps, p, qs, rfl, hbefore, ht, hafter⟩ := forall₂_split h.threads
    obtain ⟨q, news, hq, hall, hpublished, hmetrics⟩ := ht.step hcrew hcounted host
    rw [step_at]
    refine ⟨ps ++ q :: qs, ?_, ?_, ?_⟩
    · exact List.rel_append hbefore (.cons hq hafter)
    · rw [← h.all]
      simp [hall]
    · intro c
      have htally : tally (published (ps ++ q :: qs)) c =
          tally (published (ps ++ p :: qs)) c + tally news c := by
        simp only [published, List.flatMap_append, List.flatMap_cons, tally_append, hpublished]
        omega
      rw [htally, UInt64.ofNat_add, ← h.counters c, hmetrics, Metrics.get_foldl_count]

/-- What any schedule does keeps the invariant. The induction is on the schedule. -/
theorem Sound.play (hcrew : crew.sensitive = layout.sensitive) (hcounted : crew.counted = true)
    {shares : List (List Outcome)} {progress : List Progress} {j : Joint S}
    (h : j.Sound crew layout shares progress) (schedule : List Nat) :
    ∃ progress', (j.play layout schedule).Sound crew layout shares progress' := by
  induction schedule generalizing j progress with
  | nil => exact ⟨progress, h⟩
  | cons number rest ih =>
    obtain ⟨next, hnext⟩ := h.step hcrew hcounted number
    exact ih hnext

/-- The invariant holds at the start. Everything is still to come, and the counters show zero. -/
theorem sound_start {makeSink : Nat → S}
    (hclosed : ∀ number, ∃ rows, ReliableSink.Closed (makeSink number) rows) {trace : Trace}
    {outcomes : List Outcome} (hends : List.Forall₂ (TraceEvent.EndsIn layout) trace outcomes)
    (workers : Nat) (gun : Gun) (files : Files) :
    ∃ progress, (start workers layout gun trace makeSink files).Sound ⟨layout.sensitive, gun, true⟩
      layout ((List.range (max workers 1)).map fun w => Replay.share (max workers 1) w outcomes)
      progress := by
  refine ⟨(List.range (max workers 1)).map fun w =>
    ⟨[], none, Replay.share (max workers 1) w outcomes⟩, ?_, ?_, ?_⟩
  · rw [start, List.forall₂_map_left_iff, List.forall₂_map_right_iff, List.forall₂_same]
    intro w _
    obtain ⟨rows, hsink⟩ := hclosed w
    exact .waiting rfl rfl rfl hsink (Replay.forall₂_share hends _ w)
  · rw [List.map_map]
    rfl
  · intro c
    have hnone : published ((List.range (max workers 1)).map fun w =>
        ⟨[], none, Replay.share (max workers 1) w outcomes⟩) = [] := by
      rw [published, List.flatMap_map]
      exact List.flatMap_eq_nil_iff.2 fun _ _ => rfl
    rw [hnone]
    exact Metrics.get_zero c

end Joint

/-! ## What the counters show

Three inequalities follow from where the outcomes are: what is published is counted, what is counted
is in a share, and what is in a share is in the trace. -/

section

variable {S : Type} [Sink S] [ReliableSink S] {crew : Crew} {layout : Detector.Layout}
  {threads : List (Thread S)} {progress : List Progress}

/-- The summaries of all threads. -/
theorem summaries_of_at (h : List.Forall₂ (Thread.At crew layout) threads progress) (c : Counter) :
    (threads.map fun t => t.worker.summary.get c) =
      progress.map fun p => UInt64.ofNat (tally p.counted c) := by
  induction h with
  | nil => rfl
  | cons hfirst _ ih =>
    rw [List.map_cons, List.map_cons, ih, hfirst.summary_eq, Summary.get_ofOutcomes]

/-- When all threads have ended, they return the outcomes of their shares, and all of them are
published. -/
theorem delivers_of_at (h : List.Forall₂ (Thread.At crew layout) threads progress)
    {results : List (Except ReplayError (Summary × S))}
    (hresults : threads.mapM Thread.result? = some results) :
    List.Forall₂ Replay.Delivers (progress.map Progress.all) results ∧
      published progress = (progress.map Progress.all).flatten := by
  induction h generalizing results with
  | nil =>
    obtain rfl := Option.some.inj hresults
    exact ⟨.nil, rfl⟩
  | @cons t p threads progress hfirst _ ih =>
    rw [List.mapM_cons, Option.bind_eq_bind, Option.bind_eq_some_iff] at hresults
    obtain ⟨result, hresult, hrest⟩ := hresults
    rw [Option.bind_eq_bind, Option.bind_eq_some_iff] at hrest
    obtain ⟨rest, hrest, hcons⟩ := hrest
    obtain rfl := Option.some.inj hcons
    obtain ⟨hdelivers, hpublished⟩ := hfirst.delivers hresult
    obtain ⟨hothers, hall⟩ := ih hrest
    refine ⟨.cons hdelivers hothers, ?_⟩
    rw [List.map_cons, List.flatten_cons, ← hall, ← hpublished]
    rfl

/-- No more can be counted than there are events. -/
theorem tally_counted_le (progress : List Progress) (c : Counter) :
    (progress.map fun p => tally p.counted c).sum ≤
      (progress.map Progress.all).flatten.length := by
  induction progress with
  | nil => exact Nat.le_refl _
  | cons p rest ih =>
    have hfirst : tally p.counted c ≤ p.all.length := by
      rw [Progress.all, List.length_append]
      exact List.countP_le_length.trans (Nat.le_add_right _ _)
    rw [List.map_cons, List.sum_cons, List.map_cons, List.flatten_cons, List.length_append]
    exact Nat.add_le_add hfirst ih

/-- The rows of all sinks are those of the accepted events. -/
theorem sum_rows_of_closed {shares : List (List Outcome)} {sinks : List S}
    (h : List.Forall₂ (fun outcomes sink => ReliableSink.Closed sink (acceptedRows outcomes)) shares
      sinks) :
    (sinks.map Sink.rows).sum = tally shares.flatten .accepted := by
  induction h with
  | nil => rfl
  | cons hfirst _ ih =>
    rw [List.map_cons, List.sum_cons, ih, ReliableSink.rows_spec hfirst, List.flatten_cons,
      tally_append, tally_accepted, tally_accepted, acceptedRows]

end

/-- The master leaves the counters alone. -/
theorem Replay.metrics_merge {S : Type} (host : Host)
    (results : List (Except ReplayError (Summary × S))) :
    (Replay.merge host results).1.metrics = host.metrics := by
  unfold Replay.merge
  cases results.mapM id <;> rfl

/-- **No count gets lost.** For any number of workers, any trace whose steps all have volumes and
which is not longer than a counter can count, and any schedule of the workers' steps:

* at every time the counters add up, and none is ahead of the workers' own summaries;
* the workers can go on until all have ended;
* when all have ended, the replay succeeds, and the counters are those of the merged summary: all
  events of the trace are processed, and the accepted ones are the rows of the sinks. -/
theorem shared_counters_lose_nothing {S : Type} [Sink S] [ReliableSink S] (workers : Nat)
    (layout : Detector.Layout) (gun : Gun) (trace : Trace) (makeSink : Nat → S) (files : Files)
    (hclosed : ∀ number, ∃ rows, ReliableSink.Closed (makeSink number) rows)
    (hplaced : ∀ e ∈ trace, ∃ steps, e.place layout = .ok steps)
    (hlength : trace.length < UInt64.size) (schedule : List Nat) :
    let j := (Joint.start workers layout gun trace makeSink files).play layout schedule
    let metrics := j.host.metrics
    metrics.processed.toNat =
      metrics.accepted.toNat + metrics.incomplete.toNat + metrics.degenerate.toNat ∧
    (∀ c, (metrics.get c).toNat ≤
      (j.threads.map fun t => (t.worker.summary.get c).toNat).sum) ∧
    (∃ more, (j.play layout more).join?.isSome) ∧
    ∀ host answer, j.join? = some (host, answer) →
      ∃ result, answer = .ok result ∧ (∀ c, host.metrics.get c = result.summary.get c) ∧
        host.metrics.processed.toNat = trace.length ∧
        host.metrics.accepted.toNat = (result.sinks.map Sink.rows).sum := by
  obtain ⟨outcomes, hends⟩ := Replay.exists_outcomes hplaced
  obtain ⟨progress₀, hstart⟩ := Joint.sound_start hclosed hends workers gun files
  obtain ⟨progress, hsound⟩ := hstart.play rfl rfl schedule
  intro j metrics
  have hn : 0 < max workers 1 := Nat.lt_of_lt_of_le Nat.one_pos (Nat.le_max_right workers 1)
  have hperm : ((progress.map Progress.all).flatten).Perm outcomes := by
    rw [hsound.all, ← List.flatMap_def]
    exact Replay.flatMap_share_perm hn outcomes
  have hbound : ∀ c, (progress.map fun p => tally p.counted c).sum ≤ trace.length := by
    intro c
    rw [hends.length_eq, ← hperm.length_eq]
    exact tally_counted_le progress c
  -- no counter has come round to zero
  have hget : ∀ c, (metrics.get c).toNat = tally (published progress) c := by
    intro c
    rw [hsound.counters c]
    exact toNat_ofNat_of_le ((tally_published_le progress c).trans (hbound c)) hlength
  refine ⟨?_, ?_, Joint.exists_joined layout j, ?_⟩
  · have hbalance := tally_balance (published progress)
    rw [← hget, ← hget, ← hget, ← hget] at hbalance
    exact hbalance
  · intro c
    rw [hget]
    refine (tally_published_le progress c).trans (Nat.le_of_eq ?_)
    have hsummaries := congrArg (List.map UInt64.toNat) (summaries_of_at hsound.threads c)
    rw [List.map_map, List.map_map] at hsummaries
    refine congrArg List.sum (hsummaries.trans (List.map_congr_left fun p hp => ?_)).symm
    have hp : tally p.counted c ≤ (progress.map fun p => tally p.counted c).sum :=
      List.single_le_sum (fun _ _ => Nat.zero_le _) _ (List.mem_map_of_mem hp)
    exact toNat_ofNat_of_le (hp.trans (hbound c)) hlength
  · intro host answer hjoin
    obtain ⟨results, hresults, hmerge⟩ := Option.map_eq_some_iff.1 hjoin
    obtain ⟨hdelivers, hpublished⟩ := delivers_of_at hsound.threads hresults
    obtain ⟨sinks, hsinks, hanswer⟩ := Replay.merge_of_delivers hdelivers j.host
    have hhost : host.metrics = metrics := by
      have hmetrics := Replay.metrics_merge j.host results
      rw [hmerge] at hmetrics
      exact hmetrics
    rw [hmerge] at hanswer
    rw [hhost]
    refine ⟨_, hanswer, ?_, ?_, ?_⟩
    · intro c
      rw [Summary.get_mergeAll, ← hpublished]
      exact hsound.counters c
    · have hprocessed := hget .processed
      rw [hpublished, tally_perm hperm, tally_processed, ← hends.length_eq] at hprocessed
      exact hprocessed
    · rw [sum_rows_of_closed hsinks, ← hpublished]
      exact hget .accepted

/-- Two workers with an event each. Worker 1 has begun its run and ended its event for itself before
worker 0 begins, and counts the event when worker 0 is about to end its own. -/
theorem shared_counters_lose_nothing_crossed :
    let layout := (Detector.Layout.build .default .standard).1
    let trace : Trace := [⟨7, []⟩, ⟨8, []⟩]
    let start := Joint.start 2 layout .default trace (fun _ => MemorySink.fresh) .empty
    let j := start.play layout [1, 1, 1, 0, 0, 1]
    j.host.metrics.processed.toNat = j.host.metrics.accepted.toNat +
        j.host.metrics.incomplete.toNat + j.host.metrics.degenerate.toNat ∧
      ∃ more, (j.play layout more).join?.isSome := by
  intro layout trace start j
  have hplaced : ∀ e ∈ trace, ∃ steps, e.place layout = .ok steps := by
    intro e he
    simp only [trace, List.mem_cons, List.not_mem_nil, or_false] at he
    obtain rfl | rfl := he
    · exact ⟨[], rfl⟩
    · exact ⟨[], rfl⟩
  have h := shared_counters_lose_nothing 2 layout .default trace (fun _ => MemorySink.fresh) .empty
    (fun _ => ⟨[], MemorySink.closed_fresh⟩) hplaced (by decide) [1, 1, 1, 0, 0, 1]
  dsimp only [j, start] at h ⊢
  exact ⟨h.1, h.2.2.1⟩

end Telescope
