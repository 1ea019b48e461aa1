import Telescope.Proofs.WorkerRun

/-!
# Calls of a worker

The host drives a worker by calls, one after the other, and gets an answer to each. A `Call` is one of
the five calls as a value, so that what a host does is a list of calls; `Worker.serve` carries it out.

* `serve_append` and `serve_steps` take a list of calls apart.
* `built_serve`: no call changes the number of a worker or what it has from its crew.
* `Host.warnings` are the urgent ones among the records of the log. Of all calls only the end of an
  event can add one (`warnings_endEvent`).

Calls are lists so that the host can be any: one that keeps to the order, or one that does not. What
they do is defined by recursion on the list, with the answers in the same order.
-/

namespace Telescope

/-- A call of the host. -/
inductive Call
  /-- the begin of a run -/
  | beginRun
  /-- the begin of the event with this number -/
  | beginEvent (event : UInt64)
  /-- a step of the event under way -/
  | step (s : Step)
  /-- the end of the event under way -/
  | endEvent
  /-- the end of the run -/
  | endRun

/-- What a worker answers. -/
inductive Answer
  /-- the sink refused, for this reason -/
  | refused (cause : SinkError)
  /-- the call was carried out, and there is nothing to say -/
  | done
  /-- the primary particle of an event -/
  | primary (vertex : Vertex)
  /-- how an event has ended -/
  | outcome (o : Outcome)
  /-- what a run has come to -/
  | summary (s : Summary)

namespace Answer

/-- Whether the call was carried out. -/
def Accepts (a : Answer) : Prop := ∀ cause, a ≠ .refused cause

/-- The outcome, if the answer is one. -/
def outcome? : Answer → Option Outcome
  | .outcome o => some o
  | _ => none

end Answer

/-- The answer of a call that the sink may refuse. -/
def Turn.answer {S α : Type} (turn : Turn S (Except SinkError α)) (say : α → Answer) :
    Turn S Answer where
  worker := turn.worker
  host := turn.host
  result := match turn.result with
    | .ok a => say a
    | .error cause => .refused cause

namespace Worker

variable {S : Type} [Sink S]

/-- One call. -/
def call (w : Worker S) (host : Host) : Call → Turn S Answer
  | .beginRun => (w.beginRun host).answer fun _ => .done
  | .beginEvent event =>
    let turn := w.beginEvent host event
    ⟨turn.worker, turn.host, .primary turn.result⟩
  | .step s =>
    let turn := w.step host s
    ⟨turn.worker, turn.host, .done⟩
  | .endEvent => (w.endEvent host).answer .outcome
  | .endRun => (w.endRun host).answer .summary

/-- Some calls, one after the other, with an answer to each. -/
def serve (w : Worker S) (host : Host) : List Call → Turn S (List Answer)
  | [] => ⟨w, host, []⟩
  | c :: rest =>
    let turn := w.call host c
    let more := serve turn.worker turn.host rest
    { more with result := turn.result :: more.result }

/-- The first call is served, and then the others by what it leaves. -/
theorem serve_cons (w : Worker S) (host : Host) (c : Call) (rest : List Call) :
    w.serve host (c :: rest) =
      let more := (w.call host c).worker.serve (w.call host c).host rest
      ⟨more.worker, more.host, (w.call host c).result :: more.result⟩ := rfl

/-- Calls are served one after the other. -/
theorem serve_append (w : Worker S) (host : Host) (xs ys : List Call) :
    w.serve host (xs ++ ys) =
      let first := w.serve host xs
      let second := first.worker.serve first.host ys
      ⟨second.worker, second.host, first.result ++ second.result⟩ := by
  induction xs generalizing w host with
  | nil => rfl
  | cons c rest ih =>
    rw [List.cons_append, serve_cons, ih]
    rfl

/-- The steps of an event have no answer of their own. -/
theorem serve_steps (w : Worker S) (host : Host) (steps : List Step) :
    w.serve host (steps.map .step) =
      ⟨(w.takeSteps host steps).1, (w.takeSteps host steps).2, steps.map fun _ => .done⟩ := by
  induction steps generalizing w host with
  | nil => rfl
  | cons s rest ih =>
    rw [List.map_cons, serve_cons]
    dsimp only
    rw [show (w.call host (.step s)).worker = (w.step host s).worker from rfl,
      show (w.call host (.step s)).host = (w.step host s).host from rfl, ih]
    rfl

/-! ## What calls leave alone

A worker is built with a number and a crew. They tell whose warnings the log has, and which volumes
count. -/

/-- One call leaves them alone. -/
theorem built_call (w : Worker S) (host : Host) (c : Call) :
    (w.call host c).worker.number = w.number ∧ (w.call host c).worker.crew = w.crew := by
  cases c with
  | beginRun => exact ⟨rfl, rfl⟩
  | beginEvent event => exact ⟨rfl, rfl⟩
  | step s => exact ⟨rfl, rfl⟩
  | endEvent => exact w.built_endEvent host
  | endRun =>
    change (w.endRun host).worker.number = w.number ∧ (w.endRun host).worker.crew = w.crew
    unfold endRun
    simp only [afterSink]
    cases (Sink.close w.sink host.files).result <;> exact ⟨rfl, rfl⟩

/-- Calls leave alone what a worker was built with. -/
theorem built_serve (w : Worker S) (host : Host) (calls : List Call) :
    (w.serve host calls).worker.number = w.number ∧
      (w.serve host calls).worker.crew = w.crew := by
  induction calls generalizing w host with
  | nil => exact ⟨rfl, rfl⟩
  | cons c rest ih =>
    obtain ⟨hnumber, hcrew⟩ := w.built_call host c
    obtain ⟨hnumber', hcrew'⟩ := ih (w.call host c).worker (w.call host c).host
    exact ⟨hnumber'.trans hnumber, hcrew'.trans hcrew⟩

end Worker

/-! ## Warnings

The log is one list for all workers. What a worker adds to it can be told apart by the number in it,
and its warnings by their level. -/

/-- Whether a record is a warning. -/
def Log.Record.isWarning (r : Log.Record) : Bool := r.level == .warn

namespace Host

/-- The warnings of the log, in order. -/
def warnings (host : Host) : List Log.Record :=
  host.log.toList.filter Log.Record.isWarning

/-- Reports are put at the end. -/
theorem log_report (host : Host) (records : List Log.Record) :
    (host.report records).log.toList = host.log.toList ++ records := by
  unfold report
  induction records generalizing host with
  | nil => simp
  | cons r rest ih =>
    have hrest := ih { host with log := host.log.push r }
    simp only [List.foldl_cons] at hrest ⊢
    rw [hrest]
    simp

/-- So are the warnings among them. -/
theorem warnings_report (host : Host) (records : List Log.Record) :
    (host.report records).warnings = host.warnings ++ records.filter Log.Record.isWarning := by
  rw [warnings, log_report, List.filter_append, warnings]

end Host

/-- The warning about an event, if it is degenerate. -/
def Outcome.warning? (speaker : Log.Speaker) (event : UInt64) : Outcome → Option Log.Record
  | .degenerate segment => some (Worker.degenerateReport speaker event segment)
  | _ => none

namespace Worker

/-- Steps give no warnings. -/
theorem warnings_takeSteps {S : Type} (w : Worker S) (host : Host) (steps : List Step) :
    (w.takeSteps host steps).2.warnings = host.warnings := by
  induction steps generalizing w host with
  | nil => rfl
  | cons s rest ih =>
    have hdetail : (w.accumulator.addStep w.sensitive s).2.filter Log.Record.isWarning = [] := by
      unfold Accumulator.addStep
      cases w.sensitive.route s.volume <;> rfl
    have hstep : (w.step host s).host.warnings = host.warnings := by
      change (host.report (w.accumulator.addStep w.sensitive s).2).warnings = _
      rw [Host.warnings_report, hdetail, List.append_nil]
    exact (ih (w.step host s).worker (w.step host s).host).trans hstep

variable (w : Worker MemorySink) (host : Host)

/-- A sink in memory has nothing to report. -/
theorem warnings_beginRun : (w.beginRun host).host.warnings = host.warnings := by
  change ({ host with files := _ }.report (w.sink.reply host.files w.sink.start).logs).warnings = _
  unfold MemorySink.reply
  cases w.sink.start <;> rfl

/-- The end of an event warns if the event is degenerate. The warning has the number of the worker
and that of the event under way, or zero if there is none. -/
theorem warnings_endEvent {o : Outcome} (ho : w.accumulator.outcome = o) :
    (w.endEvent host).host.warnings =
      host.warnings ++ (o.warning? w.speaker (w.current.getD 0)).toList := by
  have hcount : ∀ (w : Worker MemorySink) (host : Host) (o : Outcome),
      (w.count host o).host.warnings = host.warnings := by
    intro w host o
    unfold count
    cases w.counted <;> rfl
  unfold endEvent
  rw [ho]
  cases o with
  | accepted row =>
    -- a sink in memory reports nothing, whether it takes the row or not
    have hreply : (Sink.append w.sink host.files row).logs = [] := by
      change (w.sink.reply host.files (w.sink.append row)).logs = []
      unfold MemorySink.reply
      cases w.sink.append row <;> rfl
    have hsink : ({ host with files := (Sink.append w.sink host.files row).files }.report
        (Sink.append w.sink host.files row).logs).warnings = host.warnings := by
      rw [hreply]
      rfl
    simp only [afterSink, Outcome.warning?, Option.toList_none, List.append_nil]
    cases (Sink.append w.sink host.files row).result with
    | ok => exact (hcount _ _ _).trans hsink
    | error cause => exact hsink
  | incomplete => simp [hcount, Outcome.warning?]
  | degenerate segment =>
    rw [hcount, Host.warnings_report]
    rfl

/-- The end of a run gives no warning. -/
theorem warnings_endRun : (w.endRun host).host.warnings = host.warnings := by
  change ((host.report []).report [w.speaker.report w.summary.describe]).warnings = _
  rw [Host.warnings_report]
  exact List.append_nil _

end Worker

end Telescope
