import Telescope.Run.Worker
import Telescope.Trace.Event

/-!
# Replaying a trace

The events of a trace are dealt to the workers in turn: worker `w` of `n` takes the events at the
places `w`, `w + n`, `w + 2 n`, … Every worker goes through its share on its own; what they have in
common, the counters and the log, does not depend on their order, so here they come one after the
other.

A worker stops at its first failure and gives its sink up. The replay fails if a worker does, with
the failure of the one that has the least number; otherwise the master merges the summaries.
-/

namespace Telescope

/-- Why a replay fails. -/
inductive ReplayError
  /-- the sink of a worker could not be opened -/
  | atBegin (worker : Nat) (cause : SinkError)
  /-- a step of an event has no volume -/
  | placement (event : TraceEvent) (cause : PlacementError)
  /-- the sink of a worker refused the row of an event -/
  | atEvent (worker : Nat) (event : TraceEvent) (cause : SinkError)
  /-- the sink of a worker could not be closed -/
  | atEnd (worker : Nat) (cause : SinkError)

namespace ReplayError

/-- What was being done. -/
def context : ReplayError → String
  | .atBegin worker _ => "worker " ++ toString worker ++ " begin of run"
  | .placement event _ => event.placementContext
  | .atEvent worker event _ =>
    "worker " ++ toString worker ++ " event " ++ toString event.event.toNat
  | .atEnd worker _ => "worker " ++ toString worker ++ " end of run"

/-- What went wrong. -/
def cause : ReplayError → String
  | .atBegin _ e | .atEvent _ _ e | .atEnd _ e => e.message
  | .placement _ e => e.message

/-- Both together. -/
def message (e : ReplayError) : String :=
  e.context ++ ": " ++ e.cause

end ReplayError

namespace Replay

/-- Every `n`-th element of a list, from the first one on. -/
def everyNth {α : Type} (n : Nat) (xs : List α) : List α :=
  xs.zipIdx.filterMap fun (x, i) => if i % n = 0 then some x else none

/-- The share of a worker: the events at the places that leave the rest `worker` when divided by the
number of workers. -/
def share {α : Type} (workers worker : Nat) (xs : List α) : List α :=
  everyNth workers (xs.drop worker)

variable {S : Type} [Sink S]

/-- One event of a worker. -/
def event (layout : Detector.Layout) (w : Worker S) (host : Host) (e : TraceEvent) :
    Turn S (Except ReplayError Unit) :=
  match e.place layout with
  | .error cause => ⟨w, host, .error (.placement e cause)⟩
  | .ok steps =>
    let begun := w.beginEvent host e.event
    let (w, host) := steps.foldl
      (fun (w, host) s => let turn := w.step host s; (turn.worker, turn.host))
      (begun.worker, begun.host)
    let ended := w.endEvent host
    ⟨ended.worker, ended.host, match ended.result with
      | .ok _ => .ok ()
      | .error cause => .error (.atEvent w.number e cause)⟩

/-- The events of a worker, up to the first failure. -/
def events (layout : Detector.Layout) (w : Worker S) (host : Host) :
    List TraceEvent → Turn S (Except ReplayError Unit)
  | [] => ⟨w, host, .ok ()⟩
  | e :: rest =>
    let turn := event layout w host e
    match turn.result with
    | .error cause => ⟨turn.worker, turn.host, .error cause⟩
    | .ok () => events layout turn.worker turn.host rest

/-- The whole run of a worker. -/
def run (layout : Detector.Layout) (w : Worker S) (host : Host) (share : List TraceEvent) :
    Turn S (Except ReplayError Summary) :=
  let begun := w.beginRun host
  match begun.result with
  | .error cause => ⟨begun.worker, begun.host, .error (.atBegin w.number cause)⟩
  | .ok () =>
    let turn := events layout begun.worker begun.host share
    match turn.result with
    | .error cause => ⟨turn.worker, turn.host, .error cause⟩
    | .ok () =>
      let ended := turn.worker.endRun turn.host
      ⟨ended.worker, ended.host, match ended.result with
        | .ok summary => .ok summary
        | .error cause => .error (.atEnd w.number cause)⟩

/-- The run of a worker, whose sink is given up if it fails. -/
def runOrRelease (layout : Detector.Layout) (w : Worker S) (host : Host)
    (share : List TraceEvent) : Host × Except ReplayError (Summary × S) :=
  let turn := run layout w host share
  match turn.result with
  | .ok summary => (turn.host, .ok (summary, turn.worker.sink))
  | .error cause =>
    ({ turn.host with files := Sink.release turn.worker.sink turn.host.files }, .error cause)

/-- The runs of some workers, one after the other. -/
def runAll (layout : Detector.Layout) (crew : Crew) (makeSink : Nat → S) (workers : Nat)
    (trace : Trace) (host : Host) : List Nat → Host × List (Except ReplayError (Summary × S))
  | [] => (host, [])
  | number :: rest =>
    let (host, result) :=
      runOrRelease layout (crew.worker number (makeSink number)) host (share workers number trace)
    let (host, results) := runAll layout crew makeSink workers trace host rest
    (host, result :: results)

/-- What a replay returns. -/
structure Result (S : Type) where
  /-- the summary of the whole run -/
  summary : Summary
  /-- the sinks in the order of the workers, closed -/
  sinks : List S

/-- Merges what the workers return; the first failure in their order is that of the replay. -/
def merge (host : Host) (results : List (Except ReplayError (Summary × S))) :
    Host × Except ReplayError (Result S) :=
  match results.mapM id with
  | .error cause => (host, .error cause)
  | .ok outcomes =>
    let master := outcomes.foldl (fun master o => master.merge o.1) Master.fresh
    (host.report [Log.Speaker.master.report master.report],
      .ok ⟨master.total, outcomes.map (·.2)⟩)

/-- Replays a trace with the given number of workers, at least one. -/
def execute (workers : Nat) (layout : Detector.Layout) (gun : Gun) (trace : Trace)
    (makeSink : Nat → S) (files : Files) : Host × Except ReplayError (Result S) :=
  let workers := max workers 1
  let crew : Crew := ⟨layout.sensitive, gun, true⟩
  let (host, results) :=
    runAll layout crew makeSink workers trace (Host.fresh files) (List.range workers)
  merge host results

end Replay

end Telescope
