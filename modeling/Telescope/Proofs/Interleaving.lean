import Mathlib.Logic.Relation
import Telescope.Proofs.WorkerRun

/-!
# Interleaved workers

`Replay.execute` runs one worker after the other. Here the workers run at the same time: each is a
`Thread` that goes through its share in small steps, and a schedule says which of them is next.

* A step is one call of the worker, which nothing can interrupt. The end of an event is two steps:
  in the first the worker deals with the event on its own (`Worker.settle`), in the second it counts
  it in the shared counters (`Worker.publish`).
* A thread that fails ends there, and its sink is given up, as in `Replay.runOrRelease`.
* `Joint.play` runs the threads by a schedule, any list of numbers of threads; a number that no
  thread has, or that of a thread that has ended, does nothing. So the states that are reached by
  some schedule are all states that can occur.

Two facts make sure that this is the replay: one of the schedules is that of `Replay.execute`
(`execute_is_scheduled`), and every schedule can be continued until all threads have ended
(`exists_joined`).

What is shared are the counters and the files. The counters are taken in one step, so a schedule may
put steps of other threads between the row of an event and its count, but not into the count.
-/

namespace Telescope

/-! ## The two parts of the end of an event

The end of an event is one call of the worker, and only its last action concerns others. It is
divided here so that a schedule can put something between; that the two parts make the call is the
first lemma. -/

namespace Worker

variable {S : Type} [Sink S]

/-- The end of an event as far as it concerns the worker: all but the shared counters. It is the
same call, of a worker that is not counted. -/
def settle (w : Worker S) (host : Host) : Turn S (Except SinkError Outcome) :=
  let ended := { w with counted := false }.endEvent host
  { ended with worker := { ended.worker with counted := w.counted } }

/-- The shared counters take the event. -/
def publish {S : Type} (w : Worker S) (host : Host) (o : Outcome) : Host :=
  if w.counted then { host with metrics := host.metrics.count o } else host

/-- The end of an event is both parts, the second if the sink has not refused the row. -/
theorem endEvent_eq_publish_settle (w : Worker S) (host : Host) :
    w.endEvent host =
      match (w.settle host).result with
      | .ok o => { w.settle host with host := w.publish (w.settle host).host o }
      | .error _ => w.settle host := by
  unfold settle endEvent
  cases w.accumulator.outcome with
  | accepted row =>
    simp only [afterSink]
    cases (Sink.append w.sink host.files row).result <;> rfl
  | incomplete => rfl
  | degenerate segment => rfl

/-- If the sink took the row, or there was none, then the counters are next. -/
theorem endEvent_of_settled {w : Worker S} {host : Host} {o : Outcome}
    (h : (w.settle host).result = .ok o) :
    w.endEvent host = { w.settle host with host := w.publish (w.settle host).host o } := by
  rw [endEvent_eq_publish_settle]
  simp only [h]

/-- If the sink refused the row, then the event is not counted. -/
theorem endEvent_of_refused {w : Worker S} {host : Host} {cause : SinkError}
    (h : (w.settle host).result = .error cause) : w.endEvent host = w.settle host := by
  rw [endEvent_eq_publish_settle]
  simp only [h]

end Worker

namespace Replay

variable {S : Type} [Sink S]

/-- An event leaves the number of its worker alone. -/
theorem number_event (layout : Detector.Layout) (w : Worker S) (host : Host) (e : TraceEvent) :
    (event layout w host e).worker.number = w.number := by
  cases hplace : e.place layout with
  | error cause => simp only [event, hplace]
  | ok steps =>
    rw [event_of_placed hplace]
    exact (Worker.built_endEvent _ _).1.trans (by rw [Worker.track_worker])

/-- A worker keeps its number. -/
theorem number_events (layout : Detector.Layout) (w : Worker S) (host : Host)
    (share : List TraceEvent) : (events layout w host share).worker.number = w.number := by
  induction share generalizing w host with
  | nil => rfl
  | cons e rest ih =>
    unfold events
    dsimp only
    cases (event layout w host e).result with
    | error cause => exact number_event layout w host e
    | ok => exact (ih _ _).trans (number_event layout w host e)

end Replay

/-! ## Threads

A thread is a worker with a place in its program. The places are those between two calls, and
`Phase` names them with what is still needed from before. -/

/-- How far a thread is. -/
inductive Phase
  /-- its run has not begun -/
  | waiting
  /-- no event is under way -/
  | idle
  /-- an event is under way, and these steps of it are still to come -/
  | tracking (event : TraceEvent) (steps : List Step)
  /-- an event has ended for the worker, but is not in the shared counters yet -/
  | settled (outcome : Outcome)
  /-- the run is over, with what it returns -/
  | ended (result : Except ReplayError Summary)

/-- A worker that goes through its share. -/
structure Thread (S : Type) where
  /-- the worker -/
  worker : Worker S
  /-- how far it is -/
  phase : Phase
  /-- the events of its share that it has not begun -/
  rest : Trace

namespace Thread

variable {S : Type}

/-- Whether the run of the thread is over. -/
def Ended (t : Thread S) : Prop := ∃ result, t.phase = .ended result

/-- What the thread returns, once it has ended. -/
def result? (t : Thread S) : Option (Except ReplayError (Summary × S)) :=
  match t.phase with
  | .ended result => some (result.map fun summary => (summary, t.worker.sink))
  | _ => none

/-- A thread has ended if it returns something. -/
theorem ended_iff {t : Thread S} : t.Ended ↔ t.result?.isSome := by
  unfold Ended result?
  cases t.phase <;> simp

variable [Sink S]

/-- A thread goes on after a call that may fail. If it does, the thread ends and its sink is given
up. -/
def resume {α : Type} (rest : Trace) (turn : Turn S (Except ReplayError α)) (next : α → Phase) :
    Thread S × Host :=
  match turn.result with
  | .ok a => (⟨turn.worker, next a, rest⟩, turn.host)
  | .error cause =>
    (⟨turn.worker, .ended (.error cause), rest⟩,
      { turn.host with files := Sink.release turn.worker.sink turn.host.files })

/-- A step of a thread. A thread that has ended stays as it is. -/
def step (layout : Detector.Layout) (t : Thread S) (host : Host) : Thread S × Host :=
  match t.phase, t.rest with
  | .waiting, rest =>
    let begun := t.worker.beginRun host
    resume rest ⟨begun.worker, begun.host, begun.result.mapError (.atBegin t.worker.number)⟩
      fun _ => .idle
  | .idle, e :: rest =>
    match e.place layout with
    | .error cause =>
      resume rest (⟨t.worker, host, .error (.placement e cause)⟩ : Turn S (Except _ Unit))
        fun _ => .idle
    | .ok steps =>
      let begun := t.worker.beginEvent host e.event
      (⟨begun.worker, .tracking e steps, rest⟩, begun.host)
  | .idle, [] =>
    let ended := t.worker.endRun host
    resume [] ⟨ended.worker, ended.host, ended.result.mapError (.atEnd t.worker.number)⟩
      fun summary => .ended (.ok summary)
  | .tracking e (s :: steps), rest =>
    let turn := t.worker.step host s
    (⟨turn.worker, .tracking e steps, rest⟩, turn.host)
  | .tracking e [], rest =>
    let settled := t.worker.settle host
    resume rest
      ⟨settled.worker, settled.host, settled.result.mapError (.atEvent t.worker.number e)⟩
      .settled
  | .settled o, rest => (⟨t.worker, .idle, rest⟩, t.worker.publish host o)
  | .ended _, _ => (t, host)

/-! ## Every thread comes to its end

Every step makes the number of steps left smaller. It is counted from above, since an event that
cannot be placed takes fewer. -/

/-- The most steps that an event takes. -/
def eventCost (layout : Detector.Layout) (e : TraceEvent) : Nat :=
  match e.place layout with
  | .ok steps => steps.length + 3
  | .error _ => 3

/-- The most steps that events take. -/
def cost (layout : Detector.Layout) : Trace → Nat
  | [] => 0
  | e :: rest => eventCost layout e + cost layout rest

/-- The most steps that a thread has left. -/
def left (layout : Detector.Layout) (t : Thread S) : Nat :=
  match t.phase with
  | .waiting => cost layout t.rest + 2
  | .idle => cost layout t.rest + 1
  | .tracking _ steps => cost layout t.rest + steps.length + 3
  | .settled _ => cost layout t.rest + 2
  | .ended _ => 0

/-- After a call a thread has no more left than if the call did not fail. -/
theorem left_resume_le {α : Type} (layout : Detector.Layout) (rest : Trace)
    (turn : Turn S (Except ReplayError α)) (next : α → Phase) {bound : Nat}
    (hnext : ∀ a, left layout (⟨turn.worker, next a, rest⟩ : Thread S) ≤ bound) :
    (resume rest turn next).1.left layout ≤ bound := by
  unfold resume
  cases turn.result with
  | ok a => exact hnext a
  | error cause => exact Nat.zero_le bound

/-- A step leaves less to do, unless the thread has ended. There is one case for each phase. -/
theorem left_step_lt (layout : Detector.Layout) {t : Thread S} (h : ¬ t.Ended) (host : Host) :
    (t.step layout host).1.left layout < t.left layout := by
  obtain ⟨w, phase, rest⟩ := t
  cases phase with
  | waiting =>
    exact Nat.lt_succ_of_le (left_resume_le layout rest _ _ fun _ => Nat.le_refl _)
  | idle =>
    cases rest with
    | nil => exact Nat.lt_succ_of_le (left_resume_le layout [] _ _ fun _ => Nat.zero_le _)
    | cons e rest =>
      have hcost : cost layout (e :: rest) = eventCost layout e + cost layout rest := rfl
      unfold step
      dsimp only
      cases hplace : e.place layout with
      | error cause =>
        have hevent : eventCost layout e = 3 := by rw [eventCost, hplace]
        refine Nat.lt_succ_of_le (left_resume_le layout rest _ _ fun _ => ?_)
        simp only [left]
        omega
      | ok steps =>
        have hevent : eventCost layout e = steps.length + 3 := by rw [eventCost, hplace]
        simp only [left]
        omega
  | tracking e steps =>
    cases steps with
    | cons s steps => simp [step, left]
    | nil =>
      exact Nat.lt_succ_of_le (left_resume_le layout rest _ _ fun _ => Nat.le_refl _)
  | settled o => simp [step, left]
  | ended result => exact absurd ⟨result, rfl⟩ h

/-! ## A thread on its own

With no other thread between its steps a thread does what the worker does. The lemmas follow the
program from inside out: the steps, an event, the events, the run. -/

/-- One thread gets from the first state to the second by steps of its own. -/
def Leads (layout : Detector.Layout) : Thread S × Host → Thread S × Host → Prop :=
  Relation.ReflTransGen fun a b => a.1.step layout a.2 = b

/-- A step can be put in front. -/
theorem Leads.step {layout : Detector.Layout} {t : Thread S} {host : Host} {b : Thread S × Host}
    (h : Leads layout (t.step layout host) b) : Leads layout (t, host) b :=
  Relation.ReflTransGen.head rfl h

/-- What leads on from there leads on from here. -/
theorem Leads.trans {layout : Detector.Layout} {a b c : Thread S × Host} (hab : Leads layout a b)
    (hbc : Leads layout b c) : Leads layout a c :=
  Relation.ReflTransGen.trans hab hbc

/-- The steps of an event are taken one by one. The induction is on them. -/
theorem leads_takeSteps (layout : Detector.Layout) (w : Worker S) (host : Host) (e : TraceEvent)
    (steps : List Step) (rest : Trace) :
    Leads layout (⟨w, .tracking e steps, rest⟩, host)
      (⟨(w.takeSteps host steps).1, .tracking e [], rest⟩, (w.takeSteps host steps).2) := by
  induction steps generalizing w host with
  | nil => exact .refl
  | cons s steps ih => exact .step (ih (w.step host s).worker (w.step host s).host)

/-- The end of an event in its two steps. If the sink refuses the row, then the first is the last. -/
theorem leads_endEvent (layout : Detector.Layout) (w : Worker S) (host : Host) (e : TraceEvent)
    (rest : Trace) :
    Leads layout (⟨w, .tracking e [], rest⟩, host)
      (resume rest ⟨(w.endEvent host).worker, (w.endEvent host).host,
        (w.endEvent host).result.mapError (.atEvent w.number e)⟩ fun _ => .idle) := by
  refine .step ?_
  unfold step
  dsimp only
  cases h : (w.settle host).result with
  | ok o =>
    rw [Worker.endEvent_of_settled h]
    simp only [h]
    exact .step .refl
  | error cause =>
    rw [Worker.endEvent_of_refused h]
    simp only [h]
    exact .refl

/-- An event of the share: it is placed and begun, its steps are taken, and it is ended. -/
theorem leads_event (layout : Detector.Layout) (w : Worker S) (host : Host) (e : TraceEvent)
    (rest : Trace) :
    Leads layout (⟨w, .idle, e :: rest⟩, host)
      (resume rest (Replay.event layout w host e) fun _ => .idle) := by
  refine .step ?_
  unfold step
  dsimp only
  cases hplace : e.place layout with
  | error cause =>
    simp only [Replay.event, hplace]
    exact .refl
  | ok steps =>
    refine (leads_takeSteps layout _ _ e steps rest).trans
      ((leads_endEvent layout _ _ e rest).trans ?_)
    rw [Replay.event_of_placed hplace]
    unfold Worker.track
    dsimp only
    generalize Worker.takeSteps _ _ steps = tracked
    cases h : (tracked.1.endEvent tracked.2).result <;> exact .refl

/-- The events of the share, up to the first that fails. What is left then is never looked at. -/
theorem leads_events (layout : Detector.Layout) (w : Worker S) (host : Host) (share : Trace) :
    ∃ rest, ((Replay.events layout w host share).result = .ok () → rest = []) ∧
      Leads layout (⟨w, .idle, share⟩, host)
        (resume rest (Replay.events layout w host share) fun _ => .idle) := by
  induction share generalizing w host with
  | nil => exact ⟨[], fun _ => rfl, .refl⟩
  | cons e share ih =>
    have hevent := leads_event layout w host e share
    unfold Replay.events
    dsimp only
    cases h : (Replay.event layout w host e).result with
    | ok =>
      obtain ⟨rest, hrest, hevents⟩ :=
        ih (Replay.event layout w host e).worker (Replay.event layout w host e).host
      simp only [resume, h] at hevent
      exact ⟨rest, hrest, hevent.trans hevents⟩
    | error cause =>
      simp only [resume, h] at hevent
      refine ⟨share, ?_, hevent⟩
      intro hok
      cases hok

/-- The whole run: it is begun, the events are gone through, and it is ended, unless one of these
fails. -/
theorem leads_run (layout : Detector.Layout) (w : Worker S) (host : Host) (share : Trace) :
    ∃ rest, Leads layout (⟨w, .waiting, share⟩, host)
      (resume rest (Replay.run layout w host share) fun summary => .ended (.ok summary)) := by
  unfold Replay.run
  dsimp only
  cases hbegin : (w.beginRun host).result with
  | error cause =>
    refine ⟨share, .step ?_⟩
    simp only [step, hbegin]
    exact .refl
  | ok =>
    obtain ⟨rest, hrest, hevents⟩ :=
      leads_events layout (w.beginRun host).worker (w.beginRun host).host share
    -- the first step of the thread is the begin of the run
    have hbegun : step layout (⟨w, .waiting, share⟩ : Thread S) host =
        (⟨(w.beginRun host).worker, .idle, share⟩, (w.beginRun host).host) := by
      simp only [step, hbegin]
      rfl
    have hnumber := Replay.number_events layout (w.beginRun host).worker (w.beginRun host).host share
    generalize Replay.events layout (w.beginRun host).worker (w.beginRun host).host share = turn at *
    rw [← hbegun] at hevents
    dsimp only
    cases h : turn.result with
    | error cause =>
      refine ⟨rest, .step ?_⟩
      simp only [resume, h] at hevents
      exact hevents
    | ok =>
      obtain rfl := hrest h
      simp only [resume, h] at hevents
      refine ⟨[], .step (hevents.trans (.step ?_))⟩
      have hw : turn.worker.number = w.number := hnumber
      simp only [step, hw]
      cases (turn.worker.endRun turn.host).result <;> exact .refl

/-- A thread on its own ends with what the worker returns on its own. A sink is given up where a
thread fails, and the worker gives it up there, too. -/
theorem leads_runOrRelease (layout : Detector.Layout) (w : Worker S) (host : Host) (share : Trace) :
    ∃ u : Thread S, u.result? = some (Replay.runOrRelease layout w host share).2 ∧
      Leads layout (⟨w, .waiting, share⟩, host)
        (u, (Replay.runOrRelease layout w host share).1) := by
  obtain ⟨rest, hrun⟩ := leads_run layout w host share
  unfold Replay.runOrRelease
  dsimp only
  generalize Replay.run layout w host share = turn at *
  unfold resume at hrun
  cases h : turn.result with
  | ok summary =>
    simp only [h] at hrun
    exact ⟨_, rfl, hrun⟩
  | error cause =>
    simp only [h] at hrun
    exact ⟨_, rfl, hrun⟩

end Thread

/-! ## All threads together

A schedule is a list of numbers and no promise is made about it. It may starve a thread or name one
that does not exist; what holds of all schedules holds of every way in which the threads can be run. -/

/-- The threads of a replay and what they have in common. -/
structure Joint (S : Type) where
  /-- the threads in the order of their numbers -/
  threads : List (Thread S)
  /-- the host -/
  host : Host

namespace Joint

variable {S : Type} [Sink S]

/-- All threads before their first step: each has its share of the trace. -/
def start (workers : Nat) (layout : Detector.Layout) (gun : Gun) (trace : Trace)
    (makeSink : Nat → S) (files : Files) : Joint S :=
  let workers := max workers 1
  let crew : Crew := ⟨layout.sensitive, gun, true⟩
  { threads := (List.range workers).map fun number =>
      ⟨crew.worker number (makeSink number), .waiting, Replay.share workers number trace⟩
    host := Host.fresh files }

/-- A step of the thread with this number, if there is one. -/
def step (layout : Detector.Layout) (j : Joint S) (number : Nat) : Joint S :=
  match j.threads[number]? with
  | none => j
  | some t => ⟨j.threads.set number (t.step layout j.host).1, (t.step layout j.host).2⟩

/-- The steps of a schedule. -/
def play (layout : Detector.Layout) (j : Joint S) (schedule : List Nat) : Joint S :=
  schedule.foldl (step layout) j

/-- What the replay comes to, once all threads have ended. -/
def join? (j : Joint S) : Option (Host × Except ReplayError (Replay.Result S)) :=
  (j.threads.mapM Thread.result?).map (Replay.merge j.host)

/-- A schedule may be played in two goes. -/
theorem play_append (layout : Detector.Layout) (j : Joint S) (xs ys : List Nat) :
    j.play layout (xs ++ ys) = (j.play layout xs).play layout ys :=
  List.foldl_append

/-- A step of a thread changes this thread and the host. -/
theorem step_at (layout : Detector.Layout) (before after : List (Thread S)) (t : Thread S)
    (host : Host) :
    step layout ⟨before ++ t :: after, host⟩ before.length =
      ⟨before ++ (t.step layout host).1 :: after, (t.step layout host).2⟩ := by
  simp [step]

/-- What one thread does on its own it can do among the others, since they do nothing in the
meantime. -/
theorem exists_play_of_leads {layout : Detector.Layout} {a b : Thread S × Host}
    (h : Thread.Leads layout a b) (before after : List (Thread S)) :
    ∃ schedule, play layout ⟨before ++ a.1 :: after, a.2⟩ schedule =
      ⟨before ++ b.1 :: after, b.2⟩ := by
  induction h with
  | refl => exact ⟨[], rfl⟩
  | tail _ hstep ih =>
    obtain ⟨schedule, hplay⟩ := ih
    refine ⟨schedule ++ [before.length], ?_⟩
    rw [play_append, hplay, ← hstep]
    exact step_at layout before after _ _

/-! ## Every schedule can be continued to the end

A thread that has not ended has a step that leaves it less to do. So whatever was played, it can be
brought to its end, and then the next one. -/

/-- The replay comes to something when all threads have ended. -/
theorem join?_isSome_iff {S : Type} {j : Joint S} : j.join?.isSome ↔ ∀ t ∈ j.threads, t.Ended := by
  simp only [join?, Option.isSome_map, Thread.ended_iff]
  induction j.threads with
  | nil => simp
  | cons t rest ih =>
    rw [List.mapM_cons, List.forall_mem_cons, ← ih]
    cases t.result? <;> cases rest.mapM Thread.result? <;> simp

/-- From every state the threads can go on until all have ended. The induction is on the steps that
all threads have left together. -/
theorem exists_joined (layout : Detector.Layout) (j : Joint S) :
    ∃ schedule, (j.play layout schedule).join?.isSome := by
  -- on the steps that the threads have left together
  induction hleft : (j.threads.map (Thread.left layout)).sum using Nat.strongRecOn
    generalizing j with
  | _ n ih =>
    by_cases hall : ∀ t ∈ j.threads, t.Ended
    · exact ⟨[], join?_isSome_iff.2 hall⟩
    · simp only [not_forall] at hall
      obtain ⟨t, ht, hrunning⟩ := hall
      obtain ⟨threads, host⟩ := j
      obtain ⟨before, after, rfl⟩ := List.append_of_mem ht
      have hless := Thread.left_step_lt layout hrunning host
      have hnext : ((step layout ⟨before ++ t :: after, host⟩ before.length).threads.map
          (Thread.left layout)).sum < n := by
        rw [step_at, ← hleft]
        simp only [List.map_append, List.map_cons, List.sum_append, List.sum_cons]
        omega
      obtain ⟨schedule, hjoined⟩ := ih _ hnext _ rfl
      exact ⟨before.length :: schedule, hjoined⟩

/-! ## One of the schedules is the replay

The workers of a replay run one after the other, and that is a schedule like any other. -/

/-- Threads that come one after the other do what the workers do one after the other. The induction
is on the workers; those that have run are at rest in front, and the others wait behind. -/
theorem exists_play_runAll (layout : Detector.Layout) (crew : Crew) (makeSink : Nat → S)
    (workers : Nat) (trace : Trace) (numbers : List Nat) (done : List (Thread S)) (host : Host) :
    ∃ schedule ended,
      play layout
        ⟨done ++ numbers.map fun number =>
          ⟨crew.worker number (makeSink number), .waiting, Replay.share workers number trace⟩,
          host⟩ schedule =
        ⟨done ++ ended, (Replay.runAll layout crew makeSink workers trace host numbers).1⟩ ∧
      ended.mapM Thread.result? =
        some (Replay.runAll layout crew makeSink workers trace host numbers).2 := by
  induction numbers generalizing done host with
  | nil => exact ⟨[], [], rfl, rfl⟩
  | cons number rest ih =>
    obtain ⟨u, hu, hleads⟩ := Thread.leads_runOrRelease layout
      (crew.worker number (makeSink number)) host (Replay.share workers number trace)
    obtain ⟨first, hfirst⟩ := exists_play_of_leads hleads done
      (rest.map fun number =>
        ⟨crew.worker number (makeSink number), .waiting, Replay.share workers number trace⟩)
    obtain ⟨schedule, ended, hplay, hresults⟩ := ih (done ++ [u])
      (Replay.runOrRelease layout (crew.worker number (makeSink number)) host
        (Replay.share workers number trace)).1
    refine ⟨first ++ schedule, u :: ended, ?_, ?_⟩
    · rw [List.map_cons, play_append, hfirst]
      rw [List.append_assoc, List.append_assoc] at hplay
      exact hplay
    · rw [List.mapM_cons, hu, hresults]
      rfl

/-- **The replay is one of the interleavings**: under some schedule all threads end, and the replay
comes to what `Replay.execute` returns. -/
theorem execute_is_scheduled (workers : Nat) (layout : Detector.Layout) (gun : Gun) (trace : Trace)
    (makeSink : Nat → S) (files : Files) :
    ∃ schedule, ((start workers layout gun trace makeSink files).play layout schedule).join? =
      some (Replay.execute workers layout gun trace makeSink files) := by
  obtain ⟨schedule, ended, hplay, hresults⟩ :=
    exists_play_runAll layout ⟨layout.sensitive, gun, true⟩ makeSink (max workers 1) trace
      (List.range (max workers 1)) [] (Host.fresh files)
  refine ⟨schedule, ?_⟩
  rw [List.nil_append] at hplay
  unfold start
  rw [hplay, List.nil_append, join?, hresults]
  rfl

end Joint

end Telescope
