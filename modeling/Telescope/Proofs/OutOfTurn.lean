import Telescope.Proofs.MemoryWorkers
import Telescope.Proofs.ReplayRefinement

/-!
# Calls out of turn

A host that keeps to the order of the calls finds a worker as `Telescope.Proofs.RunHistory` says. Here
the host calls as it likes: it ends events that it has not begun, begins a run twice, or goes on after a
refusal. What still holds, and what does not:

* `Worker.Tallied` ties the summary and the shared counters to lists of outcomes. It is kept by every
  call (`Tallied.call`), since a row that is refused is not counted either, and so by any number of
  calls (`Tallied.serve`).
* A refused end of an event changes nothing, but a refused begin of a run has emptied the summary
  already (`Worker.beginRun_of_open`). The calls of events that come after it add to the summary what
  they add to the sink (`serve_ofEvent`), so the rows before it are missing from the summary for good.

Two lists of outcomes are needed, because the two tallies forget at different times: the summary at
every begin of a run, the shared counters never. The first list is the end of the second
(`Tallied.suffix`).
-/

namespace Telescope

open Detector (Sensitive)

/-- The call belongs to an event: it is neither the begin nor the end of a run. -/
def Call.OfEvent : Call → Prop
  | .beginRun | .endRun => False
  | .beginEvent _ | .step _ | .endEvent => True

/-- The outcomes among some answers, the first answer apart. -/
theorem Answer.outcomes_cons (a : Answer) (rest : List Answer) :
    (a :: rest).filterMap outcome? = a.outcome?.toList ++ rest.filterMap outcome? := by
  rw [List.filterMap_cons]
  cases a.outcome? <;> rfl

namespace Worker

variable (w : Worker MemorySink) (host : Host)

/-! ## Calls of events

Between two begins of a run the summary and the sink grow together. An event has an outcome whenever
it is ended, also if it was never begun; then it is what the accumulator says. -/

/-- An event that can be ended is answered with its outcome. -/
theorem call_endEvent_of_canEnd {w : Worker MemorySink} (h : w.CanEnd) :
    w.call host .endEvent =
      ⟨w.ended, (w.endEvent host).host, .outcome w.accumulator.outcome⟩ := by
  obtain ⟨hworker, hresult, -⟩ := endEvent_of_canEnd host h
  simp only [call, Turn.answer, hworker, hresult]

/-- The end of any other is refused, and changes nothing. -/
theorem call_endEvent_of_not_canEnd {w : Worker MemorySink} (h : ¬ w.CanEnd) :
    w.call host .endEvent = ⟨w, host, .refused .notOpen⟩ := by
  simp only [call, Turn.answer, endEvent_of_not_canEnd host h]

/-- A call of an event adds the outcome that it answers, if there is one, to the summary and to the
shared counters, and its row to the sink. -/
theorem call_ofEvent {c : Call} (hc : c.OfEvent) :
    let turn := w.call host c
    let news := turn.result.outcome?.toList
    turn.worker.summary = news.foldl Summary.record w.summary ∧
      turn.worker.sink.records.size = w.sink.records.size + tally news .accepted ∧
      turn.host.metrics =
        if w.counted then news.foldl Metrics.count host.metrics else host.metrics := by
  have hnone : host.metrics = if w.counted then host.metrics else host.metrics := by
    rw [ite_self]
  cases c with
  | beginRun => exact hc.elim
  | endRun => exact hc.elim
  | beginEvent event => exact ⟨rfl, rfl, hnone⟩
  | step s => exact ⟨rfl, rfl, hnone⟩
  | endEvent =>
    by_cases h : w.CanEnd
    · obtain ⟨-, -, hmetrics⟩ := endEvent_of_canEnd host h
      rw [call_endEvent_of_canEnd host h]
      exact ⟨rfl, w.sink.size_keep _, hmetrics⟩
    · rw [call_endEvent_of_not_canEnd host h]
      exact ⟨rfl, rfl, hnone⟩

/-- The calls of events add to the summary what they add to the sink. The induction is on the calls. -/
theorem serve_ofEvent {calls : List Call} (hcalls : ∀ c ∈ calls, c.OfEvent) :
    let turn := w.serve host calls
    let news := turn.result.filterMap Answer.outcome?
    turn.worker.summary = news.foldl Summary.record w.summary ∧
      turn.worker.sink.records.size = w.sink.records.size + tally news .accepted := by
  induction calls generalizing w host with
  | nil => exact ⟨rfl, rfl⟩
  | cons c rest ih =>
    obtain ⟨hc, hrest⟩ := List.forall_mem_cons.1 hcalls
    obtain ⟨hsummary, hsize, -⟩ := w.call_ofEvent host hc
    obtain ⟨hsummary', hsize'⟩ := ih (w.call host c).worker (w.call host c).host hrest
    rw [serve_cons]
    dsimp only
    rw [Answer.outcomes_cons, List.foldl_append, tally_append, hsummary', hsize', hsummary, hsize]
    exact ⟨rfl, Nat.add_assoc _ _ _⟩

/-! ## Calls in any order

The sink forgets its rows at every opening, so its length at the end does not tell how many it has
taken. `rowsTaken` counts them as they come. -/

/-- The number of rows that the sink takes during some calls, with those that it forgets again. -/
def rowsTaken (w : Worker MemorySink) (host : Host) : List Call → Nat
  | [] => 0
  | c :: rest =>
    let turn := w.call host c
    turn.worker.sink.records.size - w.sink.records.size + rowsTaken turn.worker turn.host rest

/-- The summary has the outcomes since the run began, and the shared counters have all outcomes. -/
structure Tallied (recent all : List Outcome) (w : Worker MemorySink) (host : Host) : Prop where
  /-- the events of the worker are counted -/
  counted : w.counted = true
  /-- the summary is that of the recent outcomes -/
  summary : w.summary = Summary.ofOutcomes recent
  /-- the counters have gone through all outcomes -/
  metrics : host.metrics = all.foldl Metrics.count Metrics.zero
  /-- the recent outcomes are the last ones -/
  suffix : recent <:+ all

variable {w host} {recent all : List Outcome}

/-- **A call of any kind** adds its outcome, if it has one, and takes a row if this is accepted. -/
theorem Tallied.call (h : w.Tallied recent all host) (c : Call) :
    let turn := w.call host c
    let news := turn.result.outcome?.toList
    (∃ recent', turn.worker.Tallied recent' (all ++ news) turn.host) ∧
      turn.worker.sink.records.size - w.sink.records.size = tally news .accepted := by
  have hevent : c.OfEvent →
      (∃ recent', (w.call host c).worker.Tallied recent'
        (all ++ (w.call host c).result.outcome?.toList) (w.call host c).host) ∧
      (w.call host c).worker.sink.records.size - w.sink.records.size =
        tally (w.call host c).result.outcome?.toList .accepted := by
    intro hc
    obtain ⟨hsummary, hsize, hmetrics⟩ := w.call_ofEvent host hc
    refine ⟨⟨recent ++ (w.call host c).result.outcome?.toList, ?_, ?_, ?_, ?_⟩, ?_⟩
    · exact (congrArg Crew.counted (w.built_call host c).2).trans h.counted
    · rw [hsummary, h.summary, Summary.ofOutcomes, Summary.ofOutcomes, List.foldl_append]
    · rw [hmetrics, if_pos h.counted, h.metrics, List.foldl_append]
    · obtain ⟨older, rfl⟩ := h.suffix
      exact ⟨older, (List.append_assoc _ _ _).symm⟩
    · rw [hsize, Nat.add_sub_cancel_left]
  cases c with
  | beginEvent event => exact hevent trivial
  | step s => exact hevent trivial
  | endEvent => exact hevent trivial
  | beginRun =>
    -- the summary is emptied in any case, the sink only if it is closed
    cases hopen : w.sink.isOpen with
    | true =>
      simp only [Worker.call, Turn.answer, beginRun_of_open w host hopen]
      refine ⟨⟨[], h.counted, rfl, ?_, List.nil_suffix⟩, Nat.sub_self _⟩
      simpa [Answer.outcome?] using h.metrics
    | false =>
      simp only [Worker.call, Turn.answer, beginRun_of_closed w host hopen]
      refine ⟨⟨[], h.counted, rfl, ?_, List.nil_suffix⟩, Nat.zero_sub _⟩
      simpa [Answer.outcome?] using h.metrics
  | endRun =>
    simp only [Worker.call, Turn.answer, endRun_eq]
    refine ⟨⟨recent, h.counted, h.summary, ?_, ?_⟩, Nat.sub_self _⟩
    · simpa [Answer.outcome?, Host.report] using h.metrics
    · simpa [Answer.outcome?] using h.suffix

/-- So do any calls in any order. -/
theorem Tallied.serve (h : w.Tallied recent all host) (calls : List Call) :
    let turn := w.serve host calls
    let news := turn.result.filterMap Answer.outcome?
    (∃ recent', turn.worker.Tallied recent' (all ++ news) turn.host) ∧
      w.rowsTaken host calls = tally news .accepted := by
  induction calls generalizing w host recent all with
  | nil =>
    refine ⟨⟨recent, ?_⟩, rfl⟩
    rw [Worker.serve, List.filterMap_nil, List.append_nil]
    exact h
  | cons c rest ih =>
    obtain ⟨⟨recent', hnext⟩, hrows⟩ := h.call c
    obtain ⟨hlast, hrows'⟩ := ih hnext
    rw [serve_cons]
    dsimp only
    rw [Answer.outcomes_cons, tally_append, rowsTaken, hrows, hrows', ← List.append_assoc]
    exact ⟨hlast, rfl⟩

/-- A new worker has counted nothing. -/
theorem tallied_worker (crew : Crew) (hcounted : crew.counted = true) (number : Nat) {host : Host}
    (hzero : host.metrics = Metrics.zero) :
    (crew.worker number MemorySink.fresh).Tallied [] [] host :=
  ⟨hcounted, rfl, hzero, List.nil_suffix⟩

end Worker

/-- **The tallies agree whatever the host does.** A new worker of any number, with a sink in memory and
new shared counters, serves any calls in any order. As long as it has answered fewer outcomes than a
counter can count:

* the events of its summary are the incomplete, the degenerate and the accepted ones together;
* all quantities of the summary have equally many values;
* the events in the shared counters are the accepted, the incomplete and the degenerate ones together;
* as many events are counted as accepted as the sink has taken rows since it was made;
* if an event cannot be ended now, the attempt changes neither the worker nor the host. -/
theorem tallies_agree_out_of_turn (sensitive : Sensitive) (gun : Gun) (number : Nat) (host : Host)
    (calls : List Call) (hzero : host.metrics = Metrics.zero) :
    let worker := Crew.worker ⟨sensitive, gun, true⟩ number MemorySink.fresh
    let turn := worker.serve host calls
    let summary := turn.worker.summary
    let metrics := turn.host.metrics
    (turn.result.filterMap Answer.outcome?).length < UInt64.size →
    summary.events.toNat =
        summary.incomplete.toNat + summary.degenerate.toNat + summary.accepted.toNat ∧
      (∀ q q', (summary.moments q).count = (summary.moments q').count) ∧
      metrics.processed.toNat =
        metrics.accepted.toNat + metrics.incomplete.toNat + metrics.degenerate.toNat ∧
      metrics.accepted.toNat = worker.rowsTaken host calls ∧
      ∀ cause, (turn.worker.endEvent turn.host).result = .error cause →
        turn.worker.endEvent turn.host = ⟨turn.worker, turn.host, .error cause⟩ := by
  intro worker turn summary metrics hlength
  obtain ⟨⟨recent, htallied⟩, hrows⟩ :=
    (Worker.tallied_worker ⟨sensitive, gun, true⟩ rfl number hzero).serve calls
  rw [List.nil_append] at htallied
  have hrecent : recent.length < UInt64.size :=
    Nat.lt_of_le_of_lt htallied.suffix.length_le hlength
  -- what the summary and the counters show, as numbers
  have hsummary : ∀ c, (summary.get c).toNat = tally recent c := by
    intro c
    rw [show summary = Summary.ofOutcomes recent from htallied.summary, Summary.get_ofOutcomes,
      toNat_ofNat_of_le (tally_le_length recent c) hrecent]
  have hmetrics : ∀ c,
      (metrics.get c).toNat = tally (turn.result.filterMap Answer.outcome?) c := by
    intro c
    rw [show metrics = _ from htallied.metrics, Metrics.get_foldl_count, Metrics.get_zero,
      UInt64.zero_add, toNat_ofNat_of_le (tally_le_length _ c) hlength]
  refine ⟨?_, ?_, ?_, ?_, ?_⟩
  · have hbalance := tally_balance recent
    rw [← hsummary, ← hsummary, ← hsummary, ← hsummary] at hbalance
    change (summary.get .processed).toNat = (summary.get .incomplete).toNat +
      (summary.get .degenerate).toNat + (summary.get .accepted).toNat
    omega
  · intro q q'
    rw [show summary = Summary.ofOutcomes recent from htallied.summary,
      Summary.count_moments_ofOutcomes, Summary.count_moments_ofOutcomes]
  · have hbalance := tally_balance (turn.result.filterMap Answer.outcome?)
    rw [← hmetrics, ← hmetrics, ← hmetrics, ← hmetrics] at hbalance
    exact hbalance
  · exact (hmetrics .accepted).trans hrows.symm
  · intro cause hrefused
    exact Worker.endEvent_unchanged _ hrefused

/-- The sensitive volumes of the detector with its defaults. -/
def plainSensitive : Sensitive :=
  (Detector.Layout.build .default .standard).1.sensitive

/-- The calls of an event whose particle goes straight through all planes of that detector. -/
def straightEvent (event : UInt64) : List Call :=
  .beginEvent event ::
    ((List.finRange 4).map fun plane => .step
      ⟨plainSensitive.tracker plane, (Detector.Part.tracker plane).center,
        ⟨0.0, 0.0, 3000.0⟩, 0.0⟩) ++ [.endEvent]

/-- An event is ended too early, before the run has begun, then twice in the run, and once more after
the run. -/
def restlessTurn : Turn MemorySink (List Answer) :=
  (Crew.worker ⟨plainSensitive, .default, true⟩ 0 .fresh).serve (.fresh .empty)
    (straightEvent 7 ++ [.beginRun, .endEvent, .endEvent, .endRun, .endEvent])

/-- Two of the four attempts to end the event count, and a fifth would be refused. -/
theorem tallies_agree_out_of_turn_restless :
    (restlessTurn.result.filterMap Answer.outcome?).length = 2 ∧
      restlessTurn.host.metrics.processed.toNat =
        restlessTurn.host.metrics.accepted.toNat + restlessTurn.host.metrics.incomplete.toNat +
          restlessTurn.host.metrics.degenerate.toNat ∧
      restlessTurn.worker.endEvent restlessTurn.host =
        ⟨restlessTurn.worker, restlessTurn.host, .error .notOpen⟩ := by
  have hlength : (restlessTurn.result.filterMap Answer.outcome?).length = 2 := by decide +kernel
  have hrow : ¬ restlessTurn.worker.accumulator.outcome.row? = none := by
    rw [← Option.isNone_iff_eq_none]
    decide +kernel
  have hclosed : ¬ restlessTurn.worker.sink.isOpen = true := by decide +kernel
  have hrefused : (restlessTurn.worker.endEvent restlessTurn.host).result = .error .notOpen := by
    rw [Worker.endEvent_of_not_canEnd _ (not_or.2 ⟨hrow, hclosed⟩)]
  obtain ⟨-, -, hbalance, -, hunchanged⟩ := tallies_agree_out_of_turn plainSensitive .default 0 _ _
    rfl
    (Nat.lt_of_le_of_lt hlength.le (by decide))
  exact ⟨hlength, hbalance, hunchanged _ hrefused⟩

/-- **A refused begin of a run forgets the summary, and nothing else.** A begin of a run is refused if
and only if the sink is open. Then, whatever the worker was called for before:

* its summary is empty, and everything else is as it was, so the worker is as it was if and only if it
  had an empty summary;
* whatever calls of events come after it, the summary at the end of the run counts the rows that the
  sink has taken since, and misses those that it had. -/
theorem refused_begin_forgets_summary (w : Worker MemorySink) (host : Host) (later : List Call)
    (hlater : ∀ c ∈ later, c.OfEvent) :
    let begun := w.beginRun host
    let next := begun.worker.serve begun.host later
    (∀ cause, begun.result = .error cause ↔ w.sink.isOpen = true ∧ cause = .alreadyOpen) ∧
    (w.sink.isOpen = true →
      begun.worker = { w with summary := Summary.empty } ∧ begun.host = host ∧
      (begun.worker = w ↔ w.summary = Summary.empty) ∧
      ∃ summary, (next.worker.endRun next.host).result = .ok summary ∧
        summary.accepted + UInt64.ofNat w.sink.records.size =
          UInt64.ofNat next.worker.sink.records.size) := by
  intro begun next
  refine ⟨fun cause => ?_, fun hopen => ?_⟩
  · cases hopen : w.sink.isOpen with
    | true =>
      rw [show begun = _ from w.beginRun_of_open host hopen]
      simp [eq_comm]
    | false =>
      rw [show begun = _ from w.beginRun_of_closed host hopen]
      simp
  · -- the refused call has left everything but the summary
    have hbegun : begun = ⟨{ w with summary := Summary.empty }, host, .error .alreadyOpen⟩ :=
      w.beginRun_of_open host hopen
    obtain ⟨hsummary, hsize⟩ := begun.worker.serve_ofEvent begun.host hlater
    refine ⟨congrArg Turn.worker hbegun, congrArg Turn.host hbegun, ?_, next.worker.summary, rfl, ?_⟩
    · rw [hbegun]
      constructor
      · intro h
        exact (congrArg Worker.summary h).symm
      · intro h
        rw [← h]
    · -- the summary has started from nothing, the sink has gone on
      have haccepted : next.worker.summary.accepted = UInt64.ofNat
          (tally ((begun.worker.serve begun.host later).result.filterMap Answer.outcome?)
            .accepted) := by
        rw [show next.worker.summary = _ from hsummary, hbegun]
        exact Summary.get_ofOutcomes _ .accepted
      rw [haccepted, show next.worker.sink.records.size = _ from hsize, hbegun, UInt64.ofNat_add,
        UInt64.add_comm]

/-- The begin of a run and one event in it. -/
def runningTurn : Turn MemorySink (List Answer) :=
  (Crew.worker ⟨plainSensitive, .default, true⟩ 0 .fresh).serve (.fresh .empty)
    (.beginRun :: straightEvent 7)

/-- The event is accepted. After a second begin of the run, which is refused, the sink still has the
row, but the summary at the end of the run counts no event. -/
theorem refused_begin_forgets_summary_row_lost :
    let begun := runningTurn.worker.beginRun runningTurn.host
    begun.result = .error .alreadyOpen ∧ begun.worker.sink.records.size = 1 ∧
      ∃ summary, (begun.worker.endRun begun.host).result = .ok summary ∧ summary.accepted = 0 := by
  intro begun
  have hopen : runningTurn.worker.sink.isOpen = true := by decide +kernel
  have hsize : runningTurn.worker.sink.records.size = 1 := by decide +kernel
  obtain ⟨hrefused, hopened⟩ := refused_begin_forgets_summary runningTurn.worker runningTurn.host []
    (fun _ hc => absurd hc List.not_mem_nil)
  obtain ⟨hworker, -, -, summary, hsummary, haccepted⟩ := hopened hopen
  have hkept : begun.worker.sink.records.size = 1 := by
    rw [show begun.worker = _ from hworker]
    exact hsize
  refine ⟨(hrefused _).2 ⟨hopen, rfl⟩, hkept, summary, hsummary, ?_⟩
  rw [hsize] at haccepted
  have hsum : summary.accepted + UInt64.ofNat 1 = UInt64.ofNat 1 :=
    haccepted.trans (congrArg UInt64.ofNat hkept)
  simpa using hsum

end Telescope
