import Telescope.Proofs.Tally
import Telescope.Proofs.WorkerCalls

/-!
# Runs of one worker after the other

A worker can be used for one run after the other. Its parts start anew at different calls: the summary
and the sink at the begin of a run, the accumulator and the number of the event at the begin of an
event, and the shared counters never. This module shows that nothing of a run is left in the next one.

* `Worker.Idle` is what a worker is between two runs. Apart from what it was built with, that is a
  closed sink, whatever the rows in it.
* `serve_event` is the step inside a run, from one event to the next; `serve_events` the induction over
  the events.
* `Idle.serve_run` takes a whole run, from an idle worker to an idle worker, and `serve_runs` is the
  induction over the runs.

The answers are compared with those of a new worker, so nothing of what the answers depend on is
left over. That is stronger than comparing the state, of which an idle worker may keep what the next
call overwrites.
-/

namespace Telescope

open Detector (Sensitive)

/-- An event as the host hands it over: its number and its steps. -/
structure Passage where
  /-- the number of the event -/
  number : UInt64
  /-- its steps in order -/
  steps : List Step

namespace Passage

/-- The calls of an event. -/
def calls (e : Passage) : List Call :=
  .beginEvent e.number :: (e.steps.map .step ++ [.endEvent])

/-- How the event ends. -/
def outcome (sensitive : Sensitive) (e : Passage) : Outcome :=
  (Accumulator.ofSteps sensitive e.steps).outcome

/-- What is answered to the calls of an event. -/
def answers (crew : Crew) (e : Passage) : List Answer :=
  .primary (crew.gun.fire e.number) ::
    (e.steps.map (fun _ => .done) ++ [.outcome (e.outcome crew.sensitive)])

/-- The warning about the event, if it is degenerate. -/
def warning? (sensitive : Sensitive) (number : Nat) (e : Passage) : Option Log.Record :=
  (e.outcome sensitive).warning? (.worker number) e.number

end Passage

/-- The calls of a complete run with these events. -/
def runCalls (events : List Passage) : List Call :=
  .beginRun :: (events.flatMap Passage.calls ++ [.endRun])

/-- What is answered to the calls of a complete run. -/
def runAnswers (crew : Crew) (events : List Passage) : List Answer :=
  .done :: (events.flatMap (Passage.answers crew) ++
    [.summary (Summary.ofOutcomes (events.map (Passage.outcome crew.sensitive)))])

/-- None of these answers is a refusal. -/
theorem accepts_of_mem_runAnswers {crew : Crew} {events : List Passage} {a : Answer}
    (h : a ∈ runAnswers crew events) : a.Accepts := by
  intro cause hcause
  subst hcause
  simp [runAnswers, Passage.answers] at h

/-- The outcomes are among the answers, in order. No other answer is an outcome. -/
theorem outcomes_runAnswers (crew : Crew) (events : List Passage) :
    (runAnswers crew events).filterMap Answer.outcome? =
      events.map (Passage.outcome crew.sensitive) := by
  have hevents : (events.flatMap (Passage.answers crew)).filterMap Answer.outcome? =
      events.map (Passage.outcome crew.sensitive) := by
    induction events with
    | nil => rfl
    | cons e rest ih =>
      have hsteps : (e.steps.map fun _ => Answer.done).filterMap Answer.outcome? = [] := by
        rw [List.filterMap_map]
        exact List.filterMap_eq_nil_iff.2 fun _ _ => rfl
      rw [List.flatMap_cons, List.filterMap_append, ih, Passage.answers, List.filterMap_cons,
        List.filterMap_append, hsteps]
      rfl
  rw [runAnswers, List.filterMap_cons, List.filterMap_append, hevents]
  exact List.append_nil _

/-- The outcomes of several runs are among their answers, in order. -/
theorem outcomes_flatMap_runAnswers (crew : Crew) (runs : List (List Passage)) :
    (runs.flatMap (runAnswers crew)).filterMap Answer.outcome? =
      runs.flatten.map (Passage.outcome crew.sensitive) := by
  induction runs with
  | nil => rfl
  | cons run rest ih =>
    rw [List.flatMap_cons, List.filterMap_append, ih, outcomes_runAnswers, List.flatten_cons,
      List.map_append]

namespace Worker

variable {crew : Crew} {number : Nat}

/-- A worker between two runs. -/
structure Idle (crew : Crew) (number : Nat) (rows : List Row) (w : Worker MemorySink) : Prop where
  /-- its number is the one it was built with -/
  number : w.number = number
  /-- and so is its crew -/
  crew : w.crew = crew
  /-- its sink is closed, with the rows of the last run -/
  sink : w.sink = MemorySink.ofRows rows false

/-- A new worker is idle. -/
theorem idle_worker (crew : Crew) (number : Nat) :
    (crew.worker number MemorySink.fresh).Idle crew number [] :=
  ⟨rfl, rfl, rfl⟩

/-- What has become of the host after some events that are counted. -/
structure Follows (outcomes : List Outcome) (warnings : List Log.Record) (before after : Host) :
    Prop where
  /-- the counters have gone on by the outcomes -/
  metrics : after.metrics = outcomes.foldl Metrics.count before.metrics
  /-- and these are the new warnings -/
  warnings : after.warnings = before.warnings ++ warnings

/-- What follows on from there follows on from here. -/
theorem Follows.trans {xs ys : List Outcome} {us vs : List Log.Record} {a b c : Host}
    (hab : Follows xs us a b) (hbc : Follows ys vs b c) : Follows (xs ++ ys) (us ++ vs) a c where
  metrics := by rw [hbc.metrics, hab.metrics, List.foldl_append]
  warnings := by rw [hbc.warnings, hab.warnings, List.append_assoc]

/-! ## Events

Inside a run the invariant is `Worker.Holds`, which follows the sink and the summary. The lemmas add
the answers, the counters and the warnings. -/

/-- **An event of a run** adds its outcome, is answered with it, and is warned of if it is
degenerate. -/
theorem serve_event (hcounted : crew.counted = true) {w : Worker MemorySink}
    (hnumber : w.number = number) (hgun : w.gun = crew.gun) {outcomes : List Outcome}
    (h : w.Holds crew outcomes) (host : Host) (e : Passage) :
    let turn := w.serve host e.calls
    turn.result = e.answers crew ∧
      turn.worker.Holds crew (outcomes ++ [e.outcome crew.sensitive]) ∧
      Follows [e.outcome crew.sensitive] (e.warning? crew.sensitive number).toList host
        turn.host := by
  intro turn
  -- the worker when it is about to end the event
  obtain ⟨tracked, htracked⟩ : ∃ tracked, w.track host e.number e.steps = tracked := ⟨_, rfl⟩
  have hworker : tracked.1 =
      { w with accumulator := .ofSteps w.sensitive e.steps, current := some e.number } := by
    rw [← htracked, track_worker]
  have hhost : tracked.2.metrics = host.metrics ∧ tracked.2.warnings = host.warnings := by
    rw [← htracked]
    exact ⟨(takeSteps_host _ _ _).2, warnings_takeSteps _ _ _⟩
  have hturn : turn = ⟨(tracked.1.endEvent tracked.2).worker, (tracked.1.endEvent tracked.2).host,
      .primary (w.gun.fire e.number) :: (e.steps.map (fun _ => .done) ++
        [((tracked.1.endEvent tracked.2).answer .outcome).result])⟩ := by
    rw [← htracked]
    simp only [turn, Passage.calls, serve_cons, serve_append, serve_steps]
    rfl
  have ho : tracked.1.accumulator.outcome = e.outcome crew.sensitive := by
    rw [hworker, h.sensitive]
    rfl
  have hheld : tracked.1.Holds crew outcomes := by
    rw [hworker]
    exact ⟨h.sensitive, h.counted, h.sink, h.summary⟩
  obtain ⟨hok, hnext, hmetrics⟩ := hheld.endEvent ho tracked.2
  have hwarnings := warnings_endEvent tracked.1 tracked.2 ho
  rw [hturn]
  refine ⟨?_, hnext, ?_, ?_⟩
  · simp only [Turn.answer, hok, Passage.answers, hgun]
  · rw [hmetrics, hcounted, hhost.1]
    rfl
  · rw [hwarnings, hhost.2, hworker, speaker, hnumber]
    rfl

/-- The events of a run add their outcomes in order. The induction is on the events. -/
theorem serve_events (hcounted : crew.counted = true) {w : Worker MemorySink}
    (hnumber : w.number = number) (hgun : w.gun = crew.gun) {before : List Outcome}
    (h : w.Holds crew before) (host : Host) (events : List Passage) :
    let turn := w.serve host (events.flatMap Passage.calls)
    let outcomes := events.map (Passage.outcome crew.sensitive)
    turn.result = events.flatMap (Passage.answers crew) ∧
      turn.worker.Holds crew (before ++ outcomes) ∧
      Follows outcomes (events.filterMap (Passage.warning? crew.sensitive number)) host
        turn.host := by
  intro turn outcomes
  -- from any worker that holds some outcomes, since an event may come after others
  induction events generalizing w before host with
  | nil =>
    have hnone : before ++ outcomes = before := List.append_nil before
    exact ⟨rfl, by rwa [hnone], ⟨rfl, (List.append_nil _).symm⟩⟩
  | cons e rest ih =>
    obtain ⟨hanswers, hheld, hfollows⟩ := serve_event hcounted hnumber hgun h host e
    obtain ⟨hnumber', hcrew'⟩ := w.built_serve host e.calls
    have hgun' : (w.serve host e.calls).worker.gun = crew.gun :=
      (congrArg Crew.gun hcrew').trans hgun
    obtain ⟨hanswers', hheld', hfollows'⟩ :=
      ih (hnumber'.trans hnumber) hgun' hheld (w.serve host e.calls).host
    have hwarnings : (e :: rest).filterMap (Passage.warning? crew.sensitive number) =
        (e.warning? crew.sensitive number).toList ++
          rest.filterMap (Passage.warning? crew.sensitive number) := by
      rw [List.filterMap_cons]
      cases e.warning? crew.sensitive number <;> rfl
    rw [List.append_assoc] at hheld'
    simp only [turn, outcomes, List.flatMap_cons, serve_append, hwarnings]
    exact ⟨by rw [hanswers, hanswers'], hheld', hfollows.trans hfollows'⟩

/-! ## Runs

From one idle worker to the next the rows are the only thing that changes, and they are forgotten
when the next run begins. -/

/-- **A run of an idle worker** is the same whatever the worker has done before: the answers are those
of the run, and the worker is idle again with the rows of the run. -/
theorem Idle.serve_run (hcounted : crew.counted = true) {w : Worker MemorySink} {rows : List Row}
    (h : w.Idle crew number rows) (host : Host) (events : List Passage) :
    let turn := w.serve host (runCalls events)
    let outcomes := events.map (Passage.outcome crew.sensitive)
    turn.result = runAnswers crew events ∧ turn.worker.Idle crew number (acceptedRows outcomes) ∧
      Follows outcomes (events.filterMap (Passage.warning? crew.sensitive number)) host
        turn.host := by
  intro turn outcomes
  obtain ⟨hnumber, hcrew⟩ := w.built_serve host (runCalls events)
  have hsensitive : w.sensitive = crew.sensitive := congrArg Crew.sensitive h.crew
  have hshared : w.counted = crew.counted := congrArg Crew.counted h.crew
  have hclosed : ReliableSink.Closed w.sink rows := MemorySink.closed_iff.2 h.sink
  -- begin, events and end, each from the host that the one before has left
  obtain ⟨begun, hbegun⟩ : ∃ begun, w.beginRun host = begun := ⟨_, rfl⟩
  obtain ⟨hopened, hheld⟩ := holds_beginRun hsensitive hshared hclosed host
  have hbuilt := w.built_call host .beginRun
  have hquiet := warnings_beginRun w host
  have huncounted : (w.beginRun host).host.metrics = host.metrics := rfl
  rw [hbegun] at hopened hheld hquiet huncounted
  have hnumber₁ : begun.worker.number = number := by
    rw [← h.number, ← hbuilt.1, ← hbegun]
    rfl
  have hgun₁ : begun.worker.gun = crew.gun := by
    rw [← h.crew, ← hbuilt.2, ← hbegun]
    rfl
  obtain ⟨hanswers, hheld', hfollows⟩ :=
    serve_events hcounted hnumber₁ hgun₁ hheld begun.host events
  obtain ⟨ran, hran⟩ : ∃ ran, begun.worker.serve begun.host (events.flatMap Passage.calls) = ran :=
    ⟨_, rfl⟩
  rw [hran] at hanswers hheld' hfollows
  rw [List.nil_append] at hheld'
  obtain ⟨hended, hsink, -⟩ := hheld'.endRun ran.host
  have hturn : turn = ⟨(ran.worker.endRun ran.host).worker, (ran.worker.endRun ran.host).host,
      .done :: (ran.result ++ [((ran.worker.endRun ran.host).answer .summary).result])⟩ := by
    rw [← hran, ← hbegun]
    simp only [turn, runCalls, serve_cons, serve_append]
    rw [← hbegun] at hopened
    simp only [call, Turn.answer, hopened]
    rfl
  refine ⟨?_, ⟨hnumber.trans h.number, hcrew.trans h.crew, ?_⟩, ?_, ?_⟩
  · rw [hturn]
    simp only [Turn.answer, hended, hanswers, runAnswers]
  · rw [hturn]
    exact MemorySink.closed_iff.1 hsink
  · rw [hturn]
    exact (metrics_endRun _ _).trans (hfollows.metrics.trans (by rw [huncounted]))
  · rw [hturn]
    exact (warnings_endRun _ _).trans (hfollows.warnings.trans (by rw [hquiet]))

/-- After any number of runs a worker is idle. The induction is on the runs, and each starts where
the one before has left the worker. -/
theorem Idle.serve_runs (hcounted : crew.counted = true) {w : Worker MemorySink} {rows : List Row}
    (h : w.Idle crew number rows) (host : Host) (runs : List (List Passage)) :
    let turn := w.serve host (runs.flatMap runCalls)
    turn.result = runs.flatMap (runAnswers crew) ∧
      (∃ rows', turn.worker.Idle crew number rows') ∧
      Follows (runs.flatten.map (Passage.outcome crew.sensitive))
        (runs.flatten.filterMap (Passage.warning? crew.sensitive number)) host turn.host := by
  intro turn
  induction runs generalizing w rows host with
  | nil => exact ⟨rfl, ⟨rows, h⟩, ⟨rfl, (List.append_nil _).symm⟩⟩
  | cons run rest ih =>
    obtain ⟨hanswers, hidle, hfollows⟩ := h.serve_run hcounted host run
    obtain ⟨hanswers', hidle', hfollows'⟩ := ih hidle (w.serve host (runCalls run)).host
    simp only [turn, List.flatMap_cons, serve_append, List.flatten_cons, List.map_append,
      List.filterMap_append]
    exact ⟨by rw [hanswers, hanswers'], hidle', hfollows.trans hfollows'⟩

end Worker

/-- **Runs leave nothing behind.** A new worker of any number, with a sink in memory and counted
events, serves any number of runs, each with any events and steps. No call is refused, and after every
run, whatever the runs before it:

* the sink is closed, and has the records of the rows accepted in this run, in the order of the events;
* the run has come to the summary of its own outcomes, and every answer is the one that a new worker
  gives in the same run;
* the counters have gone on by the outcomes of all runs so far;
* the warnings of the run are those about its degenerate events, in order, each with the number of the
  worker, that of its event, and its segment. -/
theorem runs_leave_nothing_behind (sensitive : Sensitive) (gun : Gun) (number : Nat) (host : Host)
    (earlier : List (List Passage)) (run : List Passage) :
    let crew : Crew := ⟨sensitive, gun, true⟩
    let before := (crew.worker number MemorySink.fresh).serve host (earlier.flatMap runCalls)
    let after := before.worker.serve before.host (runCalls run)
    let outcomes := after.result.filterMap Answer.outcome?
    (∀ a ∈ before.result ++ after.result, a.Accepts) ∧
    outcomes = run.map (Passage.outcome sensitive) ∧
    after.worker.sink = ⟨((acceptedRows outcomes).map Table.Record.ofRow).toArray, false⟩ ∧
    after.result.getLast? = some (.summary (outcomes.foldl Summary.record Summary.empty)) ∧
    (∀ number' host', after.result =
      ((crew.worker number' MemorySink.fresh).serve host' (runCalls run)).result) ∧
    (∀ c, after.host.metrics.get c = host.metrics.get c +
      UInt64.ofNat (tally ((before.result ++ after.result).filterMap Answer.outcome?) c)) ∧
    after.host.warnings =
      before.host.warnings ++ run.filterMap (Passage.warning? sensitive number) := by
  intro crew before after
  obtain ⟨hanswers, ⟨rows, hidle⟩, hfollows⟩ :=
    (Worker.idle_worker crew number).serve_runs rfl host earlier
  obtain ⟨hanswers', hidle', hfollows'⟩ := hidle.serve_run rfl before.host run
  have hbefore : before.result = earlier.flatMap (runAnswers crew) := hanswers
  have hafter : after.result = runAnswers crew run := hanswers'
  have houtcomes : after.result.filterMap Answer.outcome? = run.map (Passage.outcome sensitive) := by
    rw [hafter, outcomes_runAnswers]
  have hall : (before.result ++ after.result).filterMap Answer.outcome? =
      earlier.flatten.map (Passage.outcome sensitive) ++ run.map (Passage.outcome sensitive) := by
    rw [List.filterMap_append, houtcomes, hbefore, outcomes_flatMap_runAnswers]
  simp only [houtcomes, hall]
  refine ⟨?_, trivial, hidle'.sink, ?_, ?_, ?_, hfollows'.warnings⟩
  · intro a ha
    rw [hbefore, hafter, List.mem_append, List.mem_flatMap] at ha
    obtain ⟨_, _, ha⟩ | ha := ha
    · exact accepts_of_mem_runAnswers ha
    · exact accepts_of_mem_runAnswers ha
  · rw [hafter, runAnswers, ← List.cons_append, List.getLast?_concat]
    rfl
  · intro number' host'
    rw [hafter, ((Worker.idle_worker crew number').serve_run rfl host' run).1]
  · intro c
    rw [(hfollows.trans hfollows').metrics, Metrics.get_foldl_count]

end Telescope
