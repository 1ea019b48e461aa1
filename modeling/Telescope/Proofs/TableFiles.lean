import Telescope.CommandLine.Execute
import Telescope.Proofs.FileLaws
import Telescope.Proofs.Interleaving
import Telescope.Proofs.NumberText
import Telescope.Proofs.PathNames
import Telescope.Proofs.ScriptLines

/-!
# The files of the workers

The workers of a run write at the same time, each to a table of its own. The names of the tables have one
base, and only the marks of the workers tell them apart.

* `Table.workerMark_inj`: a mark tells the worker. It stands in the last name of the path, before the
  ending, so whatever the base is, the last names differ (`Table.worker_of_lastName`).
* Paths with different last names lead to different places in every file tree (`Path.Apart`).
* `Thread.key_step`: a sink keeps its path, whatever its worker does next. By induction on the schedule,
  the paths of the sinks are at all times those that they were made with (`Joint.map_key_play`), and those
  are the sinks that a replay returns (`Joint.sinks_of_joined`).

It is not enough that the paths differ, since different texts may lead to one file, as `a/../b` and `b` may.
So two paths are compared by the places they lead to, in all file trees. The last name decides, since it is
also the last of the place.
-/

namespace Telescope

/-! ## Names

A mark is a number behind an underscore, or nothing. It stands directly before the ending, whatever the
base ends in. -/

/-- The paths are different, and no file tree has one place for both. -/
structure Path.Apart (path other : String) : Prop where
  /-- they are different texts -/
  ne : path ≠ other
  /-- and lead to different places -/
  place : ∀ (files : Files) (place : List String), files.locate path = .ok place →
    files.locate other ≠ .ok place

/-- The last name of a path is also that of its place. -/
theorem Path.apart_of_lastName {path other : String}
    (h : (names path).getLast? ≠ (names other).getLast?) : Apart path other where
  ne := fun heq => h (by rw [heq])
  place := fun _ _ hpath hother =>
    h ((Files.getLast?_of_locate hpath).symm.trans (Files.getLast?_of_locate hother))

namespace Table

/-- The mark of a worker tells its number. Numbers have one text each, and no mark is empty but that
of none. -/
theorem workerMark_inj {worker other : Option Nat} :
    workerMark worker = workerMark other ↔ worker = other := by
  refine ⟨fun h => ?_, congrArg workerMark⟩
  cases worker with
  | none =>
    cases other with
    | none => rfl
    | some n => exact nomatch h
  | some m =>
    cases other with
    | none => exact nomatch h
    | some n =>
      have hdigits : Nat.toDigits 10 m = Nat.toDigits 10 n := List.append_cancel_left h
      rw [← digitsFrom_toDigits m, hdigits, digitsFrom_toDigits]

/-- A mark is part of a name, since it has no slash. -/
theorem slash_not_mem_workerMark (worker : Option Nat) : '/' ∉ workerMark worker := by
  cases worker with
  | none => exact List.not_mem_nil
  | some n =>
    rw [workerMark, List.mem_append, not_or]
    exact ⟨by decide, (numeric_toDigits n).not_mem (by decide)⟩

/-- **The last name of a table's path tells the worker.** The base may end in a slash, in a name or
in the ending itself; in each case the last names are one text with different marks in it. -/
theorem worker_of_lastName {base : String} {worker other : Option Nat}
    (h : (Path.names (path base worker)).getLast? = (Path.names (path base other)).getLast?) :
    worker = other := by
  obtain ⟨last, hlast⟩ := Path.exists_lastName [] (stem base.toList)
  have hname : ∀ w, (Path.names (path base w)).getLast? =
      some (String.ofList (last ++ (workerMark w ++ ending))) := by
    intro w
    have hslash : '/' ∉ workerMark w ++ ending := by
      rw [List.mem_append, not_or]
      exact ⟨slash_not_mem_workerMark w, by decide⟩
    rw [Path.names, path, String.toList_ofList, List.append_assoc]
    exact hlast _ hslash (List.append_ne_nil_of_right_ne_nil _ (by decide))
  rw [hname, hname, Option.some_inj, String.ofList_inj, List.append_cancel_left_eq,
    List.append_cancel_right_eq] at h
  exact workerMark_inj.1 h

/-- So the tables of different workers are different files. -/
theorem apart_path (base : String) {worker other : Option Nat} (h : worker ≠ other) :
    Path.Apart (path base worker) (path base other) :=
  Path.apart_of_lastName fun hlast => h (worker_of_lastName hlast)

end Table

/-! ## Sinks

A key is something of a sink that no operation on it changes. For a sink in a file it is the path;
the lemmas about workers and threads ask for nothing else. -/

/-- What no operation on a sink changes. -/
structure Sink.Keeps {S α : Type} [Sink S] (key : S → α) : Prop where
  /-- opening it -/
  start : ∀ sink files, key (Sink.start sink files).sink = key sink
  /-- appending a row -/
  append : ∀ sink files row, key (Sink.append sink files row).sink = key sink
  /-- closing it -/
  close : ∀ sink files, key (Sink.close sink files).sink = key sink

/-- A sink in a file stays with this file. It is given when the sink is made. -/
theorem FileSink.keeps_path : Sink.Keeps FileSink.path where
  start sink files := by
    change (FileSink.start sink files).sink.path = sink.path
    unfold FileSink.start
    split
    · rfl
    · split
      · rfl
      · split <;> rfl
  append sink files row := by
    change (FileSink.append sink files row).sink.path = sink.path
    unfold FileSink.append
    split <;> rfl
  close sink files := by
    change (FileSink.close sink files).sink.path = sink.path
    unfold FileSink.close
    split
    · rfl
    · dsimp only
      split <;> rfl

variable {S α : Type} [Sink S] {key : S → α}

/-- The end of an event appends a row, at most. -/
theorem Worker.key_settle (h : Sink.Keeps key) (w : Worker S) (host : Host) :
    key (w.settle host).worker.sink = key w.sink := by
  unfold settle endEvent
  cases w.accumulator.outcome with
  | accepted row =>
    have hkey := h.append w.sink host.files row
    simp only [afterSink]
    cases (Sink.append w.sink host.files row).result <;> exact hkey
  | incomplete => rfl
  | degenerate segment => rfl

/-- The end of a run closes the sink, at most. -/
theorem Worker.key_endRun (h : Sink.Keeps key) (w : Worker S) (host : Host) :
    key (w.endRun host).worker.sink = key w.sink := by
  have hkey := h.close w.sink host.files
  unfold endRun
  simp only [afterSink]
  cases (Sink.close w.sink host.files).result <;> exact hkey

namespace Thread

/-- A thread goes on, or ends, with the worker that the call has left. -/
theorem worker_resume {β : Type} (rest : Trace) (turn : Turn S (Except ReplayError β))
    (next : β → Phase) : (resume rest turn next).1.worker = turn.worker := by
  unfold resume
  cases turn.result <;> rfl

/-- **A step leaves the key of the sink,** whatever the thread is in. There is one case for each
phase, and an operation on the sink in some of them. -/
theorem key_step (h : Sink.Keeps key) (layout : Detector.Layout) (t : Thread S) (host : Host) :
    key (t.step layout host).1.worker.sink = key t.worker.sink := by
  obtain ⟨w, phase, rest⟩ := t
  cases phase with
  | waiting =>
    unfold step
    dsimp only
    rw [worker_resume]
    exact h.start w.sink host.files
  | idle =>
    cases rest with
    | nil =>
      unfold step
      dsimp only
      rw [worker_resume]
      exact w.key_endRun h host
    | cons e rest =>
      unfold step
      dsimp only
      cases e.place layout <;> rfl
  | tracking e steps =>
    cases steps with
    | cons s steps => rfl
    | nil =>
      unfold step
      dsimp only
      rw [worker_resume]
      exact w.key_settle h host
  | settled o => rfl
  | ended result => rfl

end Thread

namespace Joint

/-- So does a step of one thread among the others. -/
theorem map_key_step (h : Sink.Keeps key) (layout : Detector.Layout) (j : Joint S) (number : Nat) :
    (j.step layout number).threads.map (fun t => key t.worker.sink) =
      j.threads.map fun t => key t.worker.sink := by
  unfold step
  cases ht : j.threads[number]? with
  | none => rfl
  | some t =>
    obtain ⟨hlt, rfl⟩ := List.getElem?_eq_some_iff.1 ht
    dsimp only
    rw [List.map_set, Thread.key_step h]
    refine List.ext_getElem? fun i => ?_
    by_cases hi : number = i
    · subst hi
      rw [List.getElem?_set_self (by rwa [List.length_map]), List.getElem?_map, ht, Option.map_some]
    · rw [List.getElem?_set_ne hi]

/-- **The keys of the sinks are the same at all times.** The induction is on the schedule. -/
theorem map_key_play (h : Sink.Keeps key) (layout : Detector.Layout) (j : Joint S)
    (schedule : List Nat) :
    (j.play layout schedule).threads.map (fun t => key t.worker.sink) =
      j.threads.map fun t => key t.worker.sink := by
  induction schedule generalizing j with
  | nil => rfl
  | cons number rest ih => exact (ih (j.step layout number)).trans (j.map_key_step h layout number)

/-- What the threads return has their sinks in it. The answers are the sinks of threads that have
all ended without an error. -/
theorem sinks_of_results {S : Type} {threads : List (Thread S)}
    {results : List (Except ReplayError (Summary × S))} {outcomes : List (Summary × S)}
    (hresults : threads.mapM Thread.result? = some results)
    (houtcomes : results.mapM id = .ok outcomes) :
    outcomes.map (·.2) = threads.map (·.worker.sink) := by
  induction threads generalizing results outcomes with
  | nil =>
    obtain rfl : [] = results := Option.some.inj hresults
    obtain rfl : [] = outcomes := Except.ok.inj houtcomes
    rfl
  | cons t rest ih =>
    rw [List.mapM_cons] at hresults
    obtain ⟨r, hr, hrest⟩ := Option.bind_eq_some_iff.1 hresults
    obtain ⟨more, hmore, heq⟩ := Option.bind_eq_some_iff.1 hrest
    obtain rfl := Option.some.inj heq
    obtain ⟨outcome, others, hout, hothers, rfl⟩ := mapM_cons_eq_ok.1 houtcomes
    -- a thread that returns something has ended without an error, and returns its own sink
    have hsink : outcome.2 = t.worker.sink := by
      unfold Thread.result? at hr
      cases hphase : t.phase with
      | ended result =>
        rw [hphase] at hr
        obtain rfl := Option.some.inj hr
        cases result with
        | error cause => exact nomatch hout
        | ok summary =>
          obtain rfl := Except.ok.inj hout
          rfl
      | _ =>
        rw [hphase] at hr
        exact nomatch hr
    rw [List.map_cons, List.map_cons, hsink, ih hmore hothers]

/-- The sinks that a replay returns are those of its threads. -/
theorem sinks_of_joined {S : Type} {j : Joint S} {host : Host} {result : Replay.Result S}
    (hjoin : j.join? = some (host, .ok result)) :
    result.sinks = j.threads.map (·.worker.sink) := by
  obtain ⟨results, hresults, hmerge⟩ := Option.map_eq_some_iff.1 hjoin
  unfold Replay.merge at hmerge
  cases houtcomes : results.mapM id with
  | error cause =>
    rw [houtcomes] at hmerge
    exact nomatch (Prod.mk.inj hmerge).2
  | ok outcomes =>
    rw [houtcomes] at hmerge
    obtain ⟨-, hresult⟩ := Prod.mk.inj hmerge
    obtain rfl := Except.ok.inj hresult
    exact sinks_of_results hresults houtcomes

end Joint

/-! ## Runs

The command line gives every worker its sink. From there on nothing but the order of the steps is
left open, and it does not matter. -/

namespace CommandLine

/-- The paths of the tables of a run, in the order of the workers. -/
def tablePaths (base : String) (workers : Nat) : List String :=
  (List.range (max workers 1)).map fun number => (sinkOf base workers number).path

/-- One worker has the table to itself, and several have their marks. A single worker has none, so
that the table of a run has the name that was asked for. -/
theorem pairwise_tablePaths (base : String) (workers : Nat) :
    (tablePaths base workers).Pairwise Path.Apart := by
  unfold tablePaths
  by_cases hseveral : workers > 1
  · have hpath : ∀ number, (sinkOf base workers number).path = Table.path base (some number) := by
      intro number
      rw [sinkOf, if_pos hseveral, FileSink.forRun]
    simp only [hpath]
    rw [List.pairwise_map]
    refine List.nodup_range.imp fun hne => Table.apart_path base ?_
    rwa [Ne, Option.some_inj]
  · rw [Nat.max_eq_right (Nat.le_of_not_lt hseveral)]
    exact List.pairwise_singleton _ _

/-- The threads start with the sinks of their workers. -/
theorem paths_start (base : String) (workers : Nat) (layout : Detector.Layout) (gun : Gun)
    (trace : Trace) (files : Files) :
    (Joint.start workers layout gun trace (sinkOf base workers) files).threads.map
      (·.worker.sink.path) = tablePaths base workers := by
  rw [Joint.start, tablePaths, List.map_map]
  rfl

/-- **No two sinks of a run share a file.** Whatever the base of the tables is, the path of each ends in
`.csv`, and the paths of different workers, or of a worker and of none, lead to different files. A run has
as many tables as workers, and at least one. Whichever thread of it is next, at all times each has the
sink that it was given, and if the run succeeds, these are the sinks it returns; so at no time do two
threads write to one file. -/
theorem sinks_share_no_file (base : String) :
    (∀ worker, Table.ending <:+ (Table.path base worker).toList) ∧
    (∀ worker other, worker ≠ other →
      Path.Apart (Table.path base worker) (Table.path base other)) ∧
    ∀ (workers : Nat) (layout : Detector.Layout) (gun : Gun) (trace : Trace) (files : Files),
      let paths := tablePaths base workers
      let start := Joint.start workers layout gun trace (sinkOf base workers) files
      paths.length = max workers 1 ∧ paths.Pairwise Path.Apart ∧
      (∀ schedule, (start.play layout schedule).threads.map (·.worker.sink.path) = paths) ∧
      (∀ schedule host result, (start.play layout schedule).join? = some (host, .ok result) →
        result.sinks.map (·.path) = paths) ∧
      ∀ result, (Replay.execute workers layout gun trace (sinkOf base workers) files).2 = .ok result →
        result.sinks.map (·.path) = paths := by
  refine ⟨Table.ending_suffix_path base, fun _ _ => Table.apart_path base, ?_⟩
  intro workers layout gun trace files paths start
  have hthreads : ∀ schedule,
      (start.play layout schedule).threads.map (·.worker.sink.path) = paths := by
    intro schedule
    rw [Joint.map_key_play FileSink.keeps_path]
    exact paths_start base workers layout gun trace files
  have hsinks : ∀ schedule host result,
      (start.play layout schedule).join? = some (host, .ok result) →
      result.sinks.map (·.path) = paths := by
    intro schedule host result hjoin
    rw [Joint.sinks_of_joined hjoin, List.map_map]
    exact hthreads schedule
  refine ⟨?_, pairwise_tablePaths base workers, hthreads, hsinks, ?_⟩
  · simp only [paths, tablePaths, List.length_map, List.length_range]
  · -- one worker after the other is one of the schedules
    intro result hresult
    obtain ⟨schedule, hjoin⟩ :=
      Joint.execute_is_scheduled workers layout gun trace (sinkOf base workers) files
    exact hsinks schedule _ result (hjoin.trans (congrArg some (Prod.ext rfl hresult)))

/-- A base that is nothing but the ending. -/
example : tablePaths ".csv" 3 = ["_t0.csv", "_t1.csv", "_t2.csv"] := by decide

end CommandLine

end Telescope
