import Mathlib.Data.List.Forall2
import Telescope.Proofs.Gathering

/-!
# The run of a worker

What a worker has at any time of a run is determined by the outcomes of the events it has ended
since the run began. The invariant is `Worker.Holds`: the sink is open and has the rows of the
accepted events in order, and the summary is that of the outcomes.

* `ReliableSink` is what is asked of a sink: nothing but the order of the calls makes it refuse.
* `Holds.endEvent` is the step of the invariant, one case for each kind of outcome; `Holds.event` adds
  the steps of the event, which touch neither the sink nor the summary.
* `Holds.events` is the induction over the events of a share, and `runOrRelease_delivers` the whole
  run, from a closed sink to a closed sink.

Other workers may change what is shared between the calls of a worker, so nothing here depends on
the host that a call is given.

A share is replayed event by event, so the invariant is stated between events. Inside an event only
the accumulator changes, and it is said elsewhere what it gathers.
-/

namespace Telescope

/-! ## Sinks

Sinks in memory and in files are used alike. What is proved of a reliable sink holds of both, as far
as the files can be written. -/

/-- A kind of sink that keeps the rows it is given and refuses a call only out of turn. -/
class ReliableSink (S : Type) [Sink S] where
  /-- the sink is closed, and these are the rows of its last run -/
  Closed : S → List Row → Prop
  /-- the sink is open and has these rows -/
  Open : S → List Row → Prop
  /-- a closed sink can be opened, and has no rows then -/
  start_spec : ∀ {sink : S} {rows : List Row}, Closed sink rows → ∀ files : Files,
    (Sink.start sink files).result = .ok () ∧ Open (Sink.start sink files).sink []
  /-- an open sink takes a row -/
  append_spec : ∀ {sink : S} {rows : List Row}, Open sink rows → ∀ (files : Files) (row : Row),
    (Sink.append sink files row).result = .ok () ∧
      Open (Sink.append sink files row).sink (rows ++ [row])
  /-- an open sink can be closed, and keeps its rows -/
  close_spec : ∀ {sink : S} {rows : List Row}, Open sink rows → ∀ files : Files,
    (Sink.close sink files).result = .ok () ∧ Closed (Sink.close sink files).sink rows
  /-- a closed sink counts the rows of its last run -/
  rows_spec : ∀ {sink : S} {rows : List Row}, Closed sink rows → Sink.rows sink = rows.length

namespace MemorySink

/-- A sink in memory with the records of these rows. -/
def ofRows (rows : List Row) (isOpen : Bool) : MemorySink :=
  ⟨(rows.map Table.Record.ofRow).toArray, isOpen⟩

instance : ReliableSink MemorySink where
  Closed sink rows := sink = ofRows rows false
  Open sink rows := sink = ofRows rows true
  start_spec := by
    rintro _ rows rfl files
    exact ⟨rfl, rfl⟩
  append_spec := by
    rintro _ rows rfl files row
    refine ⟨rfl, ?_⟩
    simp [Sink.append, append, reply, ofRows]
  close_spec := by
    rintro _ rows rfl files
    exact ⟨rfl, rfl⟩
  rows_spec := by
    rintro _ rows rfl
    simp [Sink.rows, ofRows]

/-- A closed sink in memory is determined by its rows. -/
theorem closed_iff {sink : MemorySink} {rows : List Row} :
    ReliableSink.Closed sink rows ↔ sink = ofRows rows false := Iff.rfl

/-- A new sink in memory is closed and has no rows. -/
theorem closed_fresh : ReliableSink.Closed fresh [] := rfl

end MemorySink

/-! ## Outcomes

The outcomes of a run are a list, and everything that a run leaves behind is a function of it. -/

/-- The summary of a run whose events ended like this. -/
def Summary.ofOutcomes (outcomes : List Outcome) : Summary :=
  outcomes.foldl record empty

/-- One more outcome is recorded. -/
@[simp] theorem Summary.ofOutcomes_append_singleton (outcomes : List Outcome) (o : Outcome) :
    ofOutcomes (outcomes ++ [o]) = (ofOutcomes outcomes).record o := by
  rw [ofOutcomes, ofOutcomes, List.foldl_append, List.foldl_cons, List.foldl_nil]

/-- The rows of the accepted events. -/
def acceptedRows (outcomes : List Outcome) : List Row :=
  outcomes.filterMap Outcome.row?

/-- One more outcome adds its row, if it has one. -/
@[simp] theorem acceptedRows_append_singleton (outcomes : List Outcome) (o : Outcome) :
    acceptedRows (outcomes ++ [o]) = acceptedRows outcomes ++ o.row?.toList := by
  rw [acceptedRows, acceptedRows, List.filterMap_append]
  cases o <;> rfl

/-- An event ends like this in a detector: all its steps have a volume, and the first hits and
deposits among them give this outcome. -/
def TraceEvent.EndsIn (layout : Detector.Layout) (e : TraceEvent) (o : Outcome) : Prop :=
  ∃ steps, e.place layout = .ok steps ∧ Ends layout.sensitive steps o

/-! ## The invariant

The invariant ties a worker to the outcomes of the events that it has ended since the run began. -/

namespace Worker

/-- The crew that a worker belongs to. -/
def crew {S : Type} (w : Worker S) : Crew := ⟨w.sensitive, w.gun, w.counted⟩

/-- The end of an event changes the sink, the summary and the number of the event, at most. -/
theorem built_endEvent {S : Type} [Sink S] (w : Worker S) (host : Host) :
    (w.endEvent host).worker.number = w.number ∧ (w.endEvent host).worker.crew = w.crew := by
  unfold endEvent
  cases w.accumulator.outcome with
  | accepted row =>
    simp only [afterSink]
    cases (Sink.append w.sink host.files row).result <;> exact ⟨rfl, rfl⟩
  | incomplete => exact ⟨rfl, rfl⟩
  | degenerate segment => exact ⟨rfl, rfl⟩

/-- Only a counted worker changes the shared counters. -/
theorem metrics_count {S : Type} (w : Worker S) (host : Host) (o : Outcome) :
    (w.count host o).host.metrics =
      if w.counted then host.metrics.count o else host.metrics := by
  unfold count
  cases w.counted <;> rfl

/-- The end of a run counts nothing. -/
theorem metrics_endRun {S : Type} [Sink S] (w : Worker S) (host : Host) :
    (w.endRun host).host.metrics = host.metrics := by
  unfold endRun
  simp only [afterSink]
  cases (Sink.close w.sink host.files).result <;> rfl

variable {S : Type} [Sink S] [ReliableSink S] {crew : Crew} {w : Worker S} {outcomes : List Outcome}

/-- A worker of the crew in the middle of a run, after events with these outcomes. -/
structure Holds (crew : Crew) (outcomes : List Outcome) (w : Worker S) : Prop where
  /-- it looks at the volumes that the crew looks at -/
  sensitive : w.sensitive = crew.sensitive
  /-- it counts its events if the crew does -/
  counted : w.counted = crew.counted
  /-- its sink is open and has the rows of the accepted events -/
  sink : ReliableSink.Open w.sink (acceptedRows outcomes)
  /-- its summary is that of the events -/
  summary : w.summary = Summary.ofOutcomes outcomes

/-- The begin of a run, from a closed sink. -/
theorem holds_beginRun {rows : List Row} (hsensitive : w.sensitive = crew.sensitive)
    (hcounted : w.counted = crew.counted) (hclosed : ReliableSink.Closed w.sink rows)
    (host : Host) :
    (w.beginRun host).result = .ok () ∧ (w.beginRun host).worker.Holds crew [] := by
  obtain ⟨hok, hopen⟩ := ReliableSink.start_spec hclosed host.files
  exact ⟨hok, hsensitive, hcounted, hopen, rfl⟩

namespace Holds

/-- The begin of an event and its steps change neither the sink nor the summary. -/
theorem track (h : w.Holds crew outcomes) (host : Host) (event : UInt64) (steps : List Step) :
    (w.track host event steps).1.Holds crew outcomes := by
  rw [track_worker]
  exact ⟨h.sensitive, h.counted, h.sink, h.summary⟩

/-- Counting an outcome whose row, if it has one, is in the sink. -/
theorem count {o : Outcome} (h : w.Holds crew outcomes) {sink : S}
    (hsink : ReliableSink.Open sink (acceptedRows (outcomes ++ [o]))) (host : Host) :
    ({ w with sink := sink }.count host o).worker.Holds crew (outcomes ++ [o]) where
  sensitive := h.sensitive
  counted := h.counted
  sink := hsink
  summary := by
    rw [Summary.ofOutcomes_append_singleton, ← h.summary]
    rfl

/-- The end of an event adds its outcome. An accepted one goes to the sink first, and the open sink
takes it. -/
theorem endEvent {o : Outcome} (h : w.Holds crew outcomes) (ho : w.accumulator.outcome = o)
    (host : Host) :
    (w.endEvent host).result = .ok o ∧ (w.endEvent host).worker.Holds crew (outcomes ++ [o]) ∧
      (w.endEvent host).host.metrics =
        if crew.counted then host.metrics.count o else host.metrics := by
  rw [← h.counted]
  unfold Worker.endEvent
  rw [ho]
  cases o with
  | accepted row =>
    obtain ⟨hok, hopen⟩ := ReliableSink.append_spec h.sink host.files row
    have hrows : ReliableSink.Open (Sink.append w.sink host.files row).sink
        (acceptedRows (outcomes ++ [.accepted row])) := by
      rw [acceptedRows_append_singleton]
      exact hopen
    simp only [hok]
    exact ⟨rfl, h.count hrows _, metrics_count _ _ _⟩
  | incomplete =>
    have hrows : ReliableSink.Open w.sink (acceptedRows (outcomes ++ [.incomplete])) := by
      rw [acceptedRows_append_singleton]
      simpa [Outcome.row?] using h.sink
    exact ⟨rfl, h.count hrows _, metrics_count _ _ _⟩
  | degenerate segment =>
    have hrows : ReliableSink.Open w.sink (acceptedRows (outcomes ++ [.degenerate segment])) := by
      rw [acceptedRows_append_singleton]
      simpa [Outcome.row?] using h.sink
    exact ⟨rfl, h.count hrows _, metrics_count _ _ _⟩

/-- The end of a run closes the sink and returns the summary. -/
theorem endRun (h : w.Holds crew outcomes) (host : Host) :
    (w.endRun host).result = .ok (Summary.ofOutcomes outcomes) ∧
      ReliableSink.Closed (w.endRun host).worker.sink (acceptedRows outcomes) ∧
      (w.endRun host).worker.summary = Summary.ofOutcomes outcomes := by
  obtain ⟨hok, hclosed⟩ := ReliableSink.close_spec h.sink host.files
  simp only [Worker.endRun, hok]
  exact ⟨congrArg _ h.summary, hclosed, h.summary⟩

end Holds

end Worker

/-! ## Runs

The whole run begins, goes through its share and ends. An event whose steps have no volume would
stop it, which is why each event is asked to end. -/

namespace Replay

variable {S : Type} [Sink S]

/-- An event whose steps have volumes is begun, stepped through and ended. -/
theorem event_of_placed {layout : Detector.Layout} {e : TraceEvent} {steps : List Step}
    (hsteps : e.place layout = .ok steps) (w : Worker S) (host : Host) :
    let tracked := w.track host e.event steps
    event layout w host e =
      ⟨(tracked.1.endEvent tracked.2).worker, (tracked.1.endEvent tracked.2).host,
        match (tracked.1.endEvent tracked.2).result with
        | .ok _ => .ok ()
        | .error cause => .error (.atEvent tracked.1.number e cause)⟩ := by
  simp only [event, hsteps]
  rfl

variable [ReliableSink S] {crew : Crew} {layout : Detector.Layout}

/-- An event of a run adds its outcome, whatever the worker has seen before. Its steps are placed by
the layout, which the crew has its volumes from. -/
theorem holds_event (hcrew : crew.sensitive = layout.sensitive) {w : Worker S}
    {outcomes : List Outcome} (h : w.Holds crew outcomes) {e : TraceEvent} {o : Outcome}
    (he : e.EndsIn layout o) (host : Host) :
    (event layout w host e).result = .ok () ∧
      (event layout w host e).worker.Holds crew (outcomes ++ [o]) := by
  obtain ⟨steps, hsteps, hends⟩ := he
  have ho : (w.track host e.event steps).1.accumulator.outcome = o := by
    rw [Worker.track_worker, h.sensitive, hcrew]
    exact hends.outcome_eq
  obtain ⟨hok, hnext, -⟩ :=
    (h.track host e.event steps).endEvent ho (w.track host e.event steps).2
  rw [event_of_placed hsteps]
  simp only [hok]
  exact ⟨trivial, hnext⟩

/-- The events of a share add their outcomes in order. The induction is on the events together with
their outcomes. -/
theorem holds_events (hcrew : crew.sensitive = layout.sensitive) {w : Worker S}
    {before : List Outcome} (h : w.Holds crew before) {share : List TraceEvent}
    {outcomes : List Outcome} (hends : List.Forall₂ (TraceEvent.EndsIn layout) share outcomes)
    (host : Host) :
    (events layout w host share).result = .ok () ∧
      (events layout w host share).worker.Holds crew (before ++ outcomes) := by
  -- on the share, from any worker that holds some outcomes and any host
  induction hends generalizing w before host with
  | nil => exact ⟨rfl, by rwa [List.append_nil]⟩
  | @cons e o rest outcomes he _ ih =>
    obtain ⟨hok, hnext⟩ := holds_event hcrew h he host
    have hrest := ih hnext (event layout w host e).host
    rw [List.append_assoc, List.singleton_append] at hrest
    simpa only [events, hok] using hrest

/-- What a worker returns after a run whose events ended like this: the summary of the outcomes and
a closed sink with the rows. -/
def Delivers (outcomes : List Outcome) (result : Except ReplayError (Summary × S)) : Prop :=
  ∃ sink, result = .ok (Summary.ofOutcomes outcomes, sink) ∧
    ReliableSink.Closed sink (acceptedRows outcomes)

/-- **The run of a worker.** From a closed sink, a share whose events all end delivers the outcomes
of its events. -/
theorem runOrRelease_delivers (hcrew : crew.sensitive = layout.sensitive) (number : Nat) {sink : S}
    {rows : List Row} (hclosed : ReliableSink.Closed sink rows) {share : List TraceEvent}
    {outcomes : List Outcome} (hends : List.Forall₂ (TraceEvent.EndsIn layout) share outcomes)
    (host : Host) :
    Delivers outcomes (runOrRelease layout (crew.worker number sink) host share).2 := by
  obtain ⟨hbegin, hbegun⟩ : ((crew.worker number sink).beginRun host).result = .ok () ∧
      ((crew.worker number sink).beginRun host).worker.Holds crew [] :=
    Worker.holds_beginRun rfl rfl hclosed host
  obtain ⟨hevents, hheld⟩ :=
    holds_events hcrew hbegun hends ((crew.worker number sink).beginRun host).host
  obtain ⟨hend, hsink, -⟩ := hheld.endRun
    (events layout ((crew.worker number sink).beginRun host).worker
      ((crew.worker number sink).beginRun host).host share).host
  rw [List.nil_append] at hend hsink
  simp only [runOrRelease, run, hbegin, hevents, hend]
  exact ⟨_, rfl, hsink⟩

end Replay

end Telescope
