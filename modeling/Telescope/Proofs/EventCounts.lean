import Telescope.CommandLine.Execute
import Telescope.Proofs.LastWrites
import Telescope.Proofs.SyntheticTracks

/-!
# The number of events of a run

A plan keeps the sum of the counts that a macro asks for, and a sum of zero stands for a macro that asks
for none. So a macro that asks for no events at all is given those of the command line.

* `toNat_eventCount`: the number of events, by the counts in the macro and on the command line, and when
  it is what the macro asks for (`toNat_eventCount_eq_granted_iff`);
* `exists_trace_syntheticOf`: so many events are made if the gun fires along the beam;
* `run_of_macro`: so many events are run.

Counts are kept in 64 bits and stop at the greatest of these. So the statement is one about numbers
without a bound, together with where the bound sets in.
-/

namespace Telescope.CommandLine

open Detector

variable {options : RunOptions} {files : Files} {path text : String} {commands : List Command}

/-! ## Counts

Two things are left out by the plan: how often the command stood in the macro, and whether it stood
there at all. The second is what the command line needs to know. -/

/-- The number of events that the commands of a macro ask for, if none of them is too many. -/
def askedFor (commands : List Command) : Nat := (commands.map Command.count).sum

/-- The number that they can have. -/
def granted (commands : List Command) : Nat := min (askedFor commands) (UInt64.size - 1)

/-- A macro that never asks for events asks for none. -/
theorem askedFor_of_not_mem (h : ∀ n, Command.beamOn n ∉ commands) : askedFor commands = 0 := by
  refine List.sum_eq_zero fun count hcount => ?_
  obtain ⟨command, hcommand, rfl⟩ := List.mem_map.1 hcount
  cases command with
  | beamOn n => exact absurd hcommand (h n)
  | _ => rfl

/-- The bound takes nothing away from a macro that asks for something. -/
theorem granted_eq_zero_iff : granted commands = 0 ↔ askedFor commands = 0 := by
  have hsize : 0 < UInt64.size - 1 := by decide
  unfold granted
  omega

/-- A plan has the number of events that can be had. -/
theorem toNat_events_ofCommands (commands : List Command) :
    (Plan.ofCommands commands).events.toNat = granted commands := by
  rw [Plan.ofCommands, Plan.toNat_events_foldl]
  exact congrArg (min · _) (Nat.zero_add _)

/-- The counts of the macro add up, and the command line counts if the sum is zero. -/
theorem toNat_eventCount (commands : List Command) (options : RunOptions) :
    (eventCount (Plan.ofCommands commands) options).toNat =
      if askedFor commands = 0 then options.events.toNat else granted commands := by
  have hpositive : (Plan.ofCommands commands).events > 0 ↔ 0 < granted commands := by
    rw [← toNat_events_ofCommands]
    exact UInt64.lt_iff_toNat_lt
  unfold eventCount
  split
  · next hsome =>
    rw [hpositive, Nat.pos_iff_ne_zero, Ne, granted_eq_zero_iff] at hsome
    rw [if_neg hsome, toNat_events_ofCommands]
  · next hnone =>
    rw [hpositive, Nat.pos_iff_ne_zero, not_not, granted_eq_zero_iff] at hnone
    rw [if_pos hnone]

/-- The macro has what it asks for, unless it asks for no events and the command line for some. -/
theorem toNat_eventCount_eq_granted_iff :
    (eventCount (Plan.ofCommands commands) options).toNat = granted commands ↔
      0 < askedFor commands ∨ options.events = 0 := by
  rw [toNat_eventCount]
  split
  · next hzero =>
    rw [granted_eq_zero_iff.2 hzero, hzero, or_iff_right (Nat.lt_irrefl 0), ← UInt64.toNat_inj]
    rfl
  · next hsome => exact iff_of_true rfl (.inl (Nat.pos_of_ne_zero hsome))

/-! ## Runs

A run makes its events and replays them. With the usual settings of the generator nothing is in the
way of making them, except a gun that does not fire along the beam. -/

/-- The usual settings make all of their events. -/
theorem exists_trace_syntheticOf (plan : Plan) (options : RunOptions) (catalog : Catalog) :
    ∃ events, (syntheticOf plan options).trace (Layout.build plan.detector catalog).1 plan.gun =
      .ok events ∧
      events.length = if (plan.gun.fire 0).momentum.z <= 0.0 then 0
        else (eventCount plan options).toNat := by
  by_cases hbackward : (plan.gun.fire 0).momentum.z <= 0.0
  · rw [if_pos hbackward, Synthetic.trace_eq_traceFrom]
    refine ⟨[], Synthetic.traceFrom_eq_ok_iff.2 (.inl ⟨rfl, fun scene hscene => ?_⟩), rfl⟩
    obtain rfl := Option.some.inj (Synthetic.sceneOf_build.symm.trans hscene)
    exact hbackward
  · have hdrawable : (syntheticOf plan options).Drawable := Synthetic.drawable_of_default rfl rfl
    rw [if_neg hbackward]
    exact hdrawable.exists_trace Synthetic.sceneOf_build hbackward

/-- **A run with a macro makes the events that the macro asks for**, and never more than the greatest
count. Only if they sum up to zero it makes those of the command line: this is so for a macro without
`/run/beamOn`, and also for one that asks for no events, which has some unless the command line asks for
none either. -/
theorem run_of_macro (hpath : options.macroPath = some path) (hread : files.read path = .ok text)
    (hscript : Script.read text = .ok commands) (htrace : options.tracePath = none) :
    let plan := Plan.ofCommands commands
    let layout := (Layout.build plan.detector Catalog.standard).1
    ∃ events, (syntheticOf plan options).trace layout plan.gun = .ok events ∧
      (∀ cause, saveTrace options.savePath events files = .error cause →
        run options files = .failed "" cause.message (traceCause cause) files) ∧
      (∀ later, saveTrace options.savePath events files = .ok later →
        run options files = replay plan layout options events later) ∧
      (events.length = if (plan.gun.fire 0).momentum.z <= 0.0 then 0
        else if askedFor commands = 0 then options.events.toNat else granted commands) ∧
      ((∀ n, Command.beamOn n ∉ commands) → askedFor commands = 0) ∧
      (0.0 < (plan.gun.fire 0).momentum.z →
        (events.length = granted commands ↔ 0 < askedFor commands ∨ options.events = 0)) := by
  intro plan layout
  obtain ⟨events, hevents, hlength⟩ := exists_trace_syntheticOf plan options Catalog.standard
  have hplan : planOf options.macroPath files = .ok plan := by
    simp only [planOf, hpath, hread, hscript, plan]
  have hof : traceOf plan layout options files = .ok events := by
    simp only [traceOf, htrace, layout, hevents]
  refine ⟨events, hevents, fun cause hsave => ?_, fun later hsave => ?_, ?_, askedFor_of_not_mem,
    fun hforward => ?_⟩
  · simp only [run, hplan, hof, layout, hsave]
  · simp only [run, hplan, hof, layout, hsave]
  · rw [hlength, toNat_eventCount]
  · -- a gun that fires along the beam is none of those whose events are left out
    have hnumber := (Double.isNaN_of_le (Double.le_of_lt hforward)).2
    rw [hlength, if_neg ((Double.not_le_zero_iff_pos hnumber).2 hforward)]
    exact toNat_eventCount_eq_granted_iff

/-- A macro that asks for no events, where the command line asks for two. -/
theorem run_of_macro_zero :
    let options : RunOptions := ⟨some "m.mac", none, 1, 2, 0, none⟩
    let files : Files := ⟨[], [(["m.mac"], .file "/run/beamOn 0\n" false)]⟩
    ∃ events, run options files = replay (Plan.ofCommands [.beamOn 0])
        (Layout.build .default .standard).1 options events files ∧
      events.length = 2 ∧ askedFor [.beamOn 0] = 0 := by
  intro options files
  have hread : files.read "m.mac" = .ok "/run/beamOn 0\n" := by decide
  have hscript : Script.read "/run/beamOn 0\n" = .ok [.beamOn 0] := by rfl
  have hpath : options.macroPath = some "m.mac" := rfl
  have hforward : ¬ ((Plan.ofCommands [.beamOn 0]).gun.fire 0).momentum.z <= 0.0 :=
    Synthetic.fire_default_forward Gun.default.position
  obtain ⟨events, -, -, hrun, hlength, -⟩ := run_of_macro hpath hread hscript rfl
  refine ⟨events, hrun files rfl, ?_, rfl⟩
  rw [hlength, if_neg hforward]
  rfl

end Telescope.CommandLine
