import Telescope.Proofs.Tally
import Telescope.Proofs.WorkerCalls

/-!
# Workers with a sink in memory

What a call does to a worker whose sink is in memory can be said in full, refusals included. A begin
of a run is refused if the sink is open. An end of an event is refused if there is a row and the sink
is closed (`Worker.CanEnd`). Nothing else is refused.

The host takes no part in this: the worker afterwards and the answer are the same whatever the host
(`beginRun_blind`, `endEvent_blind`).

Calls out of turn are part of this. A worker does not know whether a run or an event is under way;
it only knows its sink. So an event can be ended twice, and a row can be refused that was accepted.
-/

namespace Telescope

namespace MemorySink

/-- The sink with the record of an outcome's row, if it has one. -/
def keep (sink : MemorySink) (o : Outcome) : MemorySink :=
  { sink with records := sink.records ++ (o.row?.map Table.Record.ofRow).toArray }

/-- Only an accepted event has a record. -/
theorem size_keep (sink : MemorySink) (o : Outcome) :
    (sink.keep o).records.size = sink.records.size + tally [o] .accepted := by
  cases o <;> simp [keep, Outcome.row?, tally, Outcome.counts]

end MemorySink

namespace Worker

variable (w : Worker MemorySink) (host : Host)

/-! ## The begin and the end of a run

The summary starts anew before the sink is asked. That is why a refused begin is not without effect,
other than a refused end of an event. -/

/-- An open sink refuses the begin of a run, and the summary starts anew all the same. -/
theorem beginRun_of_open (h : w.sink.isOpen = true) :
    w.beginRun host = ⟨{ w with summary := Summary.empty }, host, .error .alreadyOpen⟩ := by
  have hreply : Sink.start w.sink host.files = ⟨w.sink, host.files, [], .error .alreadyOpen⟩ := by
    simp [Sink.start, MemorySink.reply, MemorySink.start, h]
  simp only [beginRun, hreply]
  rfl

/-- A closed sink is opened without rows. -/
theorem beginRun_of_closed (h : w.sink.isOpen = false) :
    w.beginRun host = ⟨{ w with summary := Summary.empty, sink := ⟨#[], true⟩ }, host, .ok ()⟩ := by
  have hreply : Sink.start w.sink host.files = ⟨⟨#[], true⟩, host.files, [], .ok ()⟩ := by
    simp [Sink.start, MemorySink.reply, MemorySink.start, h]
  simp only [beginRun, hreply]
  rfl

/-- The sink is closed, and the summary is returned and kept. -/
theorem endRun_eq :
    w.endRun host = ⟨{ w with sink := w.sink.close },
      host.report [w.speaker.report w.summary.describe], .ok w.summary⟩ := rfl

/-! ## The end of an event

Here the sink is asked first, and the event is counted only if it takes the row. -/

/-- The event under way can be ended: it has no row, or the sink is open. -/
def CanEnd : Prop := w.accumulator.outcome.row? = none ∨ w.sink.isOpen = true

/-- The worker after the end of an event that can be ended. -/
def ended : Worker MemorySink :=
  { w with
    sink := w.sink.keep w.accumulator.outcome
    summary := w.summary.record w.accumulator.outcome
    current := none }

variable {w}

/-- An event that can be ended is counted once in the summary, and once in the shared counters if
the worker is counted. -/
theorem endEvent_of_canEnd (h : w.CanEnd) :
    (w.endEvent host).worker = w.ended ∧ (w.endEvent host).result = .ok w.accumulator.outcome ∧
      (w.endEvent host).host.metrics =
        if w.counted then host.metrics.count w.accumulator.outcome else host.metrics := by
  unfold endEvent ended
  cases ho : w.accumulator.outcome with
  | accepted row =>
    have hopen : w.sink.isOpen = true := by
      unfold CanEnd at h
      rw [ho] at h
      simpa [Outcome.row?] using h
    have hreply : Sink.append w.sink host.files row =
        ⟨w.sink.keep (.accepted row), host.files, [], .ok ()⟩ := by
      simp [Sink.append, MemorySink.reply, MemorySink.append, MemorySink.keep, Outcome.row?, hopen]
    simp only [hreply]
    exact ⟨rfl, rfl, metrics_count _ _ _⟩
  | incomplete =>
    refine ⟨?_, rfl, metrics_count _ _ _⟩
    simp [count, MemorySink.keep, Outcome.row?]
  | degenerate segment =>
    refine ⟨?_, rfl, metrics_count _ _ _⟩
    simp [count, MemorySink.keep, Outcome.row?]

/-- An event that cannot be ended stays as it is, and so does everything else. -/
theorem endEvent_of_not_canEnd (h : ¬ w.CanEnd) :
    w.endEvent host = ⟨w, host, .error .notOpen⟩ := by
  obtain ⟨hrow, hclosed⟩ := not_or.1 h
  unfold endEvent
  cases ho : w.accumulator.outcome with
  | accepted row =>
    have hreply : Sink.append w.sink host.files row =
        ⟨w.sink, host.files, [], .error .notOpen⟩ := by
      simp [Sink.append, MemorySink.reply, MemorySink.append, hclosed]
    simp only [hreply]
    rfl
  | incomplete => simp [ho, Outcome.row?] at hrow
  | degenerate segment => simp [ho, Outcome.row?] at hrow

/-- A refused end of an event changes neither the worker nor the host. -/
theorem endEvent_unchanged {cause : SinkError} (h : (w.endEvent host).result = .error cause) :
    w.endEvent host = ⟨w, host, .error cause⟩ := by
  have hnot : ¬ w.CanEnd := by
    intro hcan
    obtain ⟨-, hresult, -⟩ := endEvent_of_canEnd host hcan
    rw [hresult] at h
    cases h
  rw [endEvent_of_not_canEnd host hnot] at h ⊢
  obtain rfl := Except.error.inj h
  rfl

variable (w)

/-! ## The host takes no part

What is in the counters and in the files decides nothing. -/

/-- The begin of a run does not depend on the host. -/
theorem beginRun_blind (host' : Host) :
    (w.beginRun host).worker = (w.beginRun host').worker ∧
      (w.beginRun host).result = (w.beginRun host').result := by
  cases h : w.sink.isOpen with
  | true =>
    rw [beginRun_of_open w host h, beginRun_of_open w host' h]
    exact ⟨rfl, rfl⟩
  | false =>
    rw [beginRun_of_closed w host h, beginRun_of_closed w host' h]
    exact ⟨rfl, rfl⟩

/-- Nor does the end of an event. -/
theorem endEvent_blind (host' : Host) :
    (w.endEvent host).worker = (w.endEvent host').worker ∧
      (w.endEvent host).result = (w.endEvent host').result := by
  by_cases h : w.CanEnd
  · obtain ⟨hworker, hresult, -⟩ := endEvent_of_canEnd host h
    obtain ⟨hworker', hresult', -⟩ := endEvent_of_canEnd host' h
    exact ⟨hworker.trans hworker'.symm, hresult.trans hresult'.symm⟩
  · rw [endEvent_of_not_canEnd host h, endEvent_of_not_canEnd host' h]
    exact ⟨rfl, rfl⟩

end Worker

end Telescope
