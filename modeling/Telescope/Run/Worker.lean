import Telescope.Event.Step
import Telescope.Gun
import Telescope.Run.Metrics
import Telescope.Run.Summary
import Telescope.Table.Sink

/-!
# Workers

A worker takes a share of a run's events. The host calls it at the begin of the run, at the begin of
every event, for every step, at the end of every event and at the end of the run. Each call is a
function from the worker and the host's state to both afterwards and the answer (`Turn`).

* The begin of a run starts a new summary and opens the sink.
* The begin of an event forgets what the last one has gathered, and returns the primary particle.
* The end of an event appends the row of an accepted event; a degenerate event is reported. If the
  sink refuses the row the event is not counted.
* The end of a run closes the sink, reports the summary and returns it.
-/

namespace Telescope

/-- What the workers of a run have in common. -/
structure Host where
  /-- the files -/
  files : Files
  /-- the shared counters -/
  metrics : Metrics
  /-- everything reported so far, in order -/
  log : Array Log.Record

namespace Host

/-- No counts and no reports. -/
def fresh (files : Files) : Host := ⟨files, Metrics.zero, #[]⟩

instance : Inhabited Host := ⟨fresh Files.empty⟩

/-- The host after some reports. -/
def report (host : Host) (records : List Log.Record) : Host :=
  { host with log := records.foldl Array.push host.log }

end Host

/-- One worker with a sink of type `S`. -/
structure Worker (S : Type) where
  /-- its number -/
  number : Nat
  /-- the gun of the run -/
  gun : Gun
  /-- the volumes whose steps matter -/
  sensitive : Detector.Sensitive
  /-- what the event under way has gathered -/
  accumulator : Accumulator
  /-- where rows go -/
  sink : S
  /-- the summary of the run under way -/
  summary : Summary
  /-- whether its events are counted in the shared counters -/
  counted : Bool
  /-- the number of the event under way -/
  current : Option UInt64

/-- What a call leaves behind. -/
structure Turn (S α : Type) where
  /-- the worker afterwards -/
  worker : Worker S
  /-- the host afterwards -/
  host : Host
  /-- the answer -/
  result : α

/-- What all workers of a run start from. -/
structure Crew where
  /-- the volumes whose steps matter -/
  sensitive : Detector.Sensitive
  /-- the gun -/
  gun : Gun
  /-- whether events are counted in the shared counters -/
  counted : Bool

/-- A worker of the crew that has done nothing yet. -/
def Crew.worker {S : Type} (crew : Crew) (number : Nat) (sink : S) : Worker S where
  number := number
  gun := crew.gun
  sensitive := crew.sensitive
  accumulator := Accumulator.empty
  sink := sink
  summary := Summary.empty
  counted := crew.counted
  current := none

namespace Worker

variable {S : Type} [Sink S]

/-- The name under which a worker reports. -/
def speaker {S : Type} (w : Worker S) : Log.Speaker := .worker w.number

/-- The state after an operation on the sink. -/
def afterSink (w : Worker S) (host : Host) (reply : SinkReply S) : Worker S × Host :=
  ({ w with sink := reply.sink }, { host with files := reply.files }.report reply.logs)

/-- The begin of a run. -/
def beginRun (w : Worker S) (host : Host) : Turn S (Except SinkError Unit) :=
  let reply := Sink.start w.sink host.files
  let (w, host) := { w with summary := Summary.empty }.afterSink host reply
  ⟨w, host, reply.result⟩

/-- The begin of an event. -/
def beginEvent (w : Worker S) (host : Host) (event : UInt64) : Turn S Vertex :=
  ⟨{ w with accumulator := Accumulator.empty, current := some event }, host, w.gun.fire event⟩

/-- A step. -/
def step (w : Worker S) (host : Host) (step : Step) : Turn S Unit :=
  let (accumulator, logs) := w.accumulator.addStep w.sensitive step
  ⟨{ w with accumulator := accumulator }, host.report logs, ()⟩

/-- The report on a degenerate event. -/
def degenerateReport (speaker : Log.Speaker) (event : UInt64) (segment : Segment) : Log.Record :=
  Log.warn (speaker.mark ++ "event " ++ toString event.toNat ++ ": zero-length " ++ segment.name
    ++ " track segment, event skipped")

/-- Counts an event that has ended. -/
def count (w : Worker S) (host : Host) (outcome : Outcome) : Turn S (Except SinkError Outcome) where
  worker := { w with summary := w.summary.record outcome, current := none }
  host := if w.counted then { host with metrics := host.metrics.count outcome } else host
  result := .ok outcome

/-- The end of an event. -/
def endEvent (w : Worker S) (host : Host) : Turn S (Except SinkError Outcome) :=
  match w.accumulator.outcome with
  | .accepted row =>
    let reply := Sink.append w.sink host.files row
    let (w, host) := w.afterSink host reply
    match reply.result with
    | .error e => ⟨w, host, .error e⟩
    | .ok () => w.count host (.accepted row)
  | .incomplete => w.count host .incomplete
  | .degenerate segment =>
    w.count (host.report [degenerateReport w.speaker (w.current.getD 0) segment])
      (.degenerate segment)

/-- The end of a run. -/
def endRun (w : Worker S) (host : Host) : Turn S (Except SinkError Summary) :=
  let reply := Sink.close w.sink host.files
  let (w, host) := w.afterSink host reply
  match reply.result with
  | .error e => ⟨w, host, .error e⟩
  | .ok () => ⟨w, host.report [w.speaker.report w.summary.describe], .ok w.summary⟩

end Worker

end Telescope
