import Mathlib.Logic.Function.Iterate
import Telescope.Proofs.Interleaving
import Telescope.Proofs.MemoryWorkers

/-!
# What a replay returns under other schedules

The threads of a replay have the host in common, and what is in it does depend on their order. But a
worker with a sink in memory does not look at it, so what such a thread does is its own affair:

* `Thread.step_blind`: a step does the same to the thread whatever the host, so there is one
  function, `Thread.advance`, for all of them;
* `Joint.threads_play`: of a schedule only how often it names a thread matters to the thread;
* `Joint.answer_of_joined`: whenever all threads have ended, the replay comes to what
  `Replay.execute` returns.

For sinks in files this would not hold without more: two sinks might be one file. It holds of the
answer only; the log and the counters on the way do depend on the schedule.
-/

namespace Telescope

/-- The end of an event does not look at the host. -/
theorem Worker.settle_blind (w : Worker MemorySink) (host host' : Host) :
    (w.settle host).worker = (w.settle host').worker ∧
      (w.settle host).result = (w.settle host').result := by
  obtain ⟨hworker, hresult⟩ := Worker.endEvent_blind { w with counted := false } host host'
  refine ⟨?_, hresult⟩
  unfold settle
  dsimp only
  rw [hworker]

namespace Thread

/-- How a thread goes on after a call does not depend on the host either. -/
theorem resume_blind {S α : Type} [Sink S] {rest : Trace}
    {turn turn' : Turn S (Except ReplayError α)} {next : α → Phase}
    (hworker : turn.worker = turn'.worker) (hresult : turn.result = turn'.result) :
    (resume rest turn next).1 = (resume rest turn' next).1 := by
  unfold resume
  rw [hworker, hresult]
  cases turn'.result <;> rfl

/-- A step of a thread whose sink is in memory, by what the thread is in. There is one case for each
phase, and in each the call does not look at the host. -/
theorem step_blind (layout : Detector.Layout) (t : Thread MemorySink) (host host' : Host) :
    (t.step layout host).1 = (t.step layout host').1 := by
  obtain ⟨w, phase, rest⟩ := t
  cases phase with
  | waiting =>
    obtain ⟨hworker, hresult⟩ := w.beginRun_blind host host'
    exact resume_blind hworker (congrArg (Except.mapError (ReplayError.atBegin w.number)) hresult)
  | idle =>
    cases rest with
    | nil => exact resume_blind rfl rfl
    | cons e rest =>
      unfold step
      dsimp only
      cases e.place layout <;> rfl
  | tracking e steps =>
    cases steps with
    | cons s steps => rfl
    | nil =>
      obtain ⟨hworker, hresult⟩ := w.settle_blind host host'
      exact resume_blind hworker
        (congrArg (Except.mapError (ReplayError.atEvent w.number e)) hresult)
  | settled o => rfl
  | ended result => rfl

/-- The thread after its next step. -/
def advance (layout : Detector.Layout) (t : Thread MemorySink) : Thread MemorySink :=
  (t.step layout default).1

/-- A step advances the thread. -/
theorem step_fst (layout : Detector.Layout) (t : Thread MemorySink) (host : Host) :
    (t.step layout host).1 = t.advance layout :=
  t.step_blind layout host default

/-- Once a thread has ended it stays as it is. -/
theorem iterate_advance_of_le {layout : Detector.Layout} {t : Thread MemorySink} {m n : Nat}
    (hended : ((advance layout)^[m] t).Ended) (hmn : m ≤ n) :
    (advance layout)^[n] t = (advance layout)^[m] t := by
  obtain ⟨more, rfl⟩ := Nat.exists_eq_add_of_le hmn
  rw [Nat.add_comm, Function.iterate_add_apply]
  generalize (advance layout)^[m] t = u at hended
  obtain ⟨w, phase, rest⟩ := u
  obtain ⟨result, rfl⟩ := hended
  exact Function.iterate_fixed rfl more

/-- However many steps it has taken, a thread that has ended is the same. So it does not matter for
how long a schedule goes on. -/
theorem iterate_advance_unique {layout : Detector.Layout} {t : Thread MemorySink} {m n : Nat}
    (hm : ((advance layout)^[m] t).Ended) (hn : ((advance layout)^[n] t).Ended) :
    (advance layout)^[m] t = (advance layout)^[n] t := by
  obtain hmn | hnm := Nat.le_total m n
  · exact (iterate_advance_of_le hm hmn).symm
  · exact iterate_advance_of_le hn hnm

end Thread

/-- The master's answer comes from what the workers return. -/
theorem Replay.merge_blind {S : Type} [Sink S] (host host' : Host)
    (results : List (Except ReplayError (Summary × S))) :
    (merge host results).2 = (merge host' results).2 := by
  unfold merge
  cases results.mapM id <;> rfl

namespace Joint

/-- **Threads do not meet.** After a schedule a thread has taken as many steps as the schedule has
turns for it, and the turns of the others have not changed it. -/
theorem threads_play (layout : Detector.Layout) (j : Joint MemorySink) (schedule : List Nat)
    (number : Nat) :
    (j.play layout schedule).threads[number]? =
      j.threads[number]?.map (Thread.advance layout)^[schedule.count number] := by
  induction schedule generalizing j with
  | nil => simp [play]
  | cons turn rest ih =>
    -- a turn advances the thread it names, and no other
    have hstep : (j.step layout turn).threads[number]? =
        j.threads[number]?.map (if turn = number then Thread.advance layout else id) := by
      unfold step
      cases hturn : j.threads[turn]? with
      | none =>
        by_cases h : turn = number
        · obtain rfl := h
          rw [hturn, Option.map_none]
        · rw [if_neg h, Option.map_id]
          rfl
      | some t =>
        dsimp only
        rw [Thread.step_fst]
        by_cases h : turn = number
        · obtain rfl := h
          have hlt : turn < j.threads.length := (List.getElem?_eq_some_iff.1 hturn).1
          rw [List.getElem?_set_self hlt, hturn, if_pos rfl, Option.map_some]
        · rw [List.getElem?_set_ne h, if_neg h, Option.map_id]
          rfl
    have hrest := ih (j.step layout turn)
    rw [hstep, Option.map_map] at hrest
    refine hrest.trans ?_
    by_cases h : turn = number
    · obtain rfl := h
      rw [if_pos rfl, List.count_cons_self, Function.iterate_succ]
    · rw [if_neg h, List.count_cons_of_ne h, Function.comp_id]

/-- Two schedules after which all threads have ended leave the threads alike. Each thread may have
had more turns in one of them, but it did nothing with these. -/
theorem threads_of_joined {layout : Detector.Layout} {j : Joint MemorySink}
    {schedule schedule' : List Nat} (h : (j.play layout schedule).join?.isSome)
    (h' : (j.play layout schedule').join?.isSome) :
    (j.play layout schedule).threads = (j.play layout schedule').threads := by
  rw [join?_isSome_iff] at h h'
  refine List.ext_getElem? fun number => ?_
  have hplay := threads_play layout j schedule number
  have hplay' := threads_play layout j schedule' number
  cases ht : j.threads[number]? with
  | none =>
    rw [ht, Option.map_none] at hplay hplay'
    rw [hplay, hplay']
  | some t =>
    rw [ht, Option.map_some] at hplay hplay'
    have hended := h _ (List.mem_of_getElem? hplay)
    have hended' := h' _ (List.mem_of_getElem? hplay')
    rw [hplay, hplay', Thread.iterate_advance_unique hended hended']

/-- **The schedule does not matter to the answer.** Whenever all threads have ended, the replay
comes to what it comes to with one worker after the other. -/
theorem answer_of_joined {workers : Nat} {layout : Detector.Layout} {gun : Gun} {trace : Trace}
    {makeSink : Nat → MemorySink} {files : Files} {schedule : List Nat}
    {host : Host} {answer : Except ReplayError (Replay.Result MemorySink)}
    (h : ((start workers layout gun trace makeSink files).play layout schedule).join? =
      some (host, answer)) :
    answer = (Replay.execute workers layout gun trace makeSink files).2 := by
  obtain ⟨schedule', h'⟩ := execute_is_scheduled workers layout gun trace makeSink files
  have hthreads := threads_of_joined (Option.isSome_of_eq_some h) (Option.isSome_of_eq_some h')
  unfold join? at h h'
  rw [hthreads] at h
  obtain ⟨results, hresults, hmerge⟩ := Option.map_eq_some_iff.1 h
  rw [hresults, Option.map_some, Option.some.injEq] at h'
  rw [← h', Replay.merge_blind _ _ results, hmerge]

end Joint

end Telescope
