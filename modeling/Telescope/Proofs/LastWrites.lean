import Mathlib.Algebra.GroupWithZero.Nat
import Mathlib.Data.List.Basic
import Telescope.Plan

/-!
# The last command of a kind decides

A plan has nine settings, each of which one kind of command sets. The other kinds ask for events, have
the run prepared, or are without effect.

* `Plan.Setting`: the settings, what each holds, what it is in a plan and what a command sets it to.
* `get_apply`, `prepared_apply`, `toNat_events_apply`: what one command does to a setting, to the
  preparation and to the number of events.
* `get_foldl`, `prepared_foldl`, `toNat_events_foldl`: what a list of commands does to them. A sum that
  stops at the greatest count after every command is the sum of all the counts, stopped once.
* `ofCommands_lastWriter`: the plan of a list of commands, and which lists have the same plan.

A macro is a list of assignments, so its plan is a fold. What is shown of the fold is that settings
do not see each other: it can be read setting by setting, and what a setting does not look at can be
moved or left out.
-/

namespace Telescope

namespace Command

/-- What a command is about, without its argument. -/
inductive Kind
  | targetMaterial
  | targetThickness
  | useMagnet
  | magnetField
  | gunParticle
  | gunEnergy
  | gunDirection
  | gunPosition
  | outputFile
  | prepare
  | beamOn
  | verbosity
  deriving DecidableEq, Repr

/-- The kind of a command. -/
def kind : Command → Kind
  | .targetMaterial _ => .targetMaterial
  | .targetThickness _ => .targetThickness
  | .useMagnet _ => .useMagnet
  | .magnetField _ => .magnetField
  | .gunParticle _ => .gunParticle
  | .gunEnergy _ => .gunEnergy
  | .gunDirection _ => .gunDirection
  | .gunPosition _ => .gunPosition
  | .outputFile _ => .outputFile
  | .prepare => .prepare
  | .beamOn _ => .beamOn
  | .verbosity => .verbosity

/-- The events that a command asks for. -/
def count : Command → Nat
  | .beamOn n => n.toNat
  | _ => 0

/-- The commands of one kind, in their order. -/
def ofKind (k : Kind) (commands : List Command) : List Command :=
  commands.filter (·.kind = k)

/-- The commands of a kind are the commands that have it. -/
theorem mem_ofKind {k : Kind} {c : Command} {commands : List Command} :
    c ∈ ofKind k commands ↔ c ∈ commands ∧ c.kind = k := by
  simp [ofKind]

/-- Only `beamOn` asks for events. -/
theorem count_of_kind_ne {c : Command} (h : c.kind ≠ .beamOn) : c.count = 0 := by
  cases c <;> first | rfl | exact absurd rfl h

/-- The events that a list asks for are those of its `beamOn` commands. -/
theorem sum_count_ofKind (commands : List Command) :
    ((ofKind .beamOn commands).map count).sum = (commands.map count).sum := by
  induction commands with
  | nil => rfl
  | cons c commands ih =>
    by_cases hkind : c.kind = .beamOn
    · simp [ofKind, hkind, ← ih]
    · simp [ofKind, hkind, count_of_kind_ne hkind, ← ih]

end Command

namespace Plan

/-! ## Settings

Settings hold values of different types, so a setting is a name and its value depends on it. With
that one lemma serves for all nine. -/

/-- The settings of a plan. -/
inductive Setting
  | targetMaterial
  | targetThickness
  | useMagnet
  | magnetField
  | particle
  | energy
  | direction
  | position
  | outputFile

namespace Setting

/-- What a setting holds. -/
def Value : Setting → Type
  | .targetMaterial => String
  | .targetThickness => Float
  | .useMagnet => Bool
  | .magnetField => Float
  | .particle => Particle
  | .energy => Float
  | .direction => Vector3
  | .position => Vector3
  | .outputFile => Option String

/-- What a setting is in a plan. -/
def get : (s : Setting) → Plan → s.Value
  | .targetMaterial, plan => plan.detector.targetMaterial
  | .targetThickness, plan => plan.detector.targetThickness
  | .useMagnet, plan => plan.detector.useMagnet
  | .magnetField, plan => plan.detector.magnetField
  | .particle, plan => plan.gun.particle
  | .energy, plan => plan.gun.kineticEnergy
  | .direction, plan => plan.gun.direction
  | .position, plan => plan.gun.position
  | .outputFile, plan => plan.outputFile

/-- What a command sets a setting to, if it sets it. -/
def set? : (s : Setting) → Command → Option s.Value
  | .targetMaterial, .targetMaterial name => some name
  | .targetThickness, .targetThickness t => some t
  | .useMagnet, .useMagnet on => some on
  | .magnetField, .magnetField b => some b
  | .particle, .gunParticle p => some p
  | .energy, .gunEnergy e => some e
  | .direction, .gunDirection d => some d
  | .position, .gunPosition p => some p
  | .outputFile, .outputFile name => some (some name)
  | _, _ => none

/-- The kind of the commands that set a setting. -/
def kind : Setting → Command.Kind
  | .targetMaterial => .targetMaterial
  | .targetThickness => .targetThickness
  | .useMagnet => .useMagnet
  | .magnetField => .magnetField
  | .particle => .gunParticle
  | .energy => .gunEnergy
  | .direction => .gunDirection
  | .position => .gunPosition
  | .outputFile => .outputFile

/-- No setting is set by a command without effect. -/
theorem kind_ne_verbosity (s : Setting) : s.kind ≠ .verbosity := by
  cases s <;> simp [kind]

/-- The commands that set a setting are those of its kind. -/
theorem isSome_set? (s : Setting) (c : Command) : (s.set? c).isSome ↔ c.kind = s.kind := by
  cases s <;> cases c <;> first | exact iff_of_true rfl rfl | simp [set?, kind, Command.kind]

/-- A command of another kind does not set it. -/
theorem set?_of_kind_ne {s : Setting} {c : Command} (h : c.kind ≠ s.kind) : s.set? c = none := by
  apply Option.not_isSome_iff_eq_none.1
  intro hsome
  exact h ((s.isSome_set? c).1 hsome)

/-- What is assigned to a setting by a list, in the order of the list, is read off the commands of its
kind. -/
theorem filterMap_ofKind (s : Setting) (commands : List Command) :
    (Command.ofKind s.kind commands).filterMap s.set? = commands.filterMap s.set? := by
  induction commands with
  | nil => rfl
  | cons c commands ih =>
    by_cases hkind : c.kind = s.kind
    · simp only [Command.ofKind, hkind, decide_true, List.filter_cons_of_pos, List.filterMap_cons]
      rw [← ih, Command.ofKind]
    · simp only [Command.ofKind, hkind, decide_false, Bool.false_eq_true, not_false_eq_true,
        List.filter_cons_of_neg, List.filterMap_cons, set?_of_kind_ne hkind]
      rw [← ih, Command.ofKind]

/-! ## One command -/

/-- **A command sets its own setting and leaves the others.** -/
theorem get_apply (s : Setting) (plan : Plan) (c : Command) :
    s.get (plan.apply c) = (s.set? c).getD (s.get plan) := by
  cases s <;> cases c <;> rfl

/-! ## Many commands

The plan that a list starts from is any plan, so that the list can be gone through from its front. -/

/-- What is assigned last stays. The induction is on the list, with any plan to start from. -/
theorem get_foldl (s : Setting) (commands : List Command) (plan : Plan) :
    s.get (commands.foldl apply plan) =
      (commands.filterMap s.set?).getLast?.getD (s.get plan) := by
  induction commands generalizing plan with
  | nil => rfl
  | cons c commands ih =>
    rw [List.foldl_cons, ih, get_apply, List.filterMap_cons]
    cases s.set? c with
    | none => rfl
    | some value => simp [List.getLast?_cons]

end Setting

/-! ## Preparation and events

These two are no settings. The run is prepared by any one of its commands, and counts add up. -/

/-- A command prepares the run, or leaves it as prepared as it was. -/
theorem prepared_apply (plan : Plan) (c : Command) :
    (plan.apply c).prepared = true ↔ plan.prepared = true ∨ c = .prepare := by
  cases c <;> simp [apply]

/-- So one such command among all is enough. -/
theorem prepared_foldl (commands : List Command) (plan : Plan) :
    (commands.foldl apply plan).prepared = true ↔
      plan.prepared = true ∨ Command.prepare ∈ commands := by
  induction commands generalizing plan with
  | nil => simp
  | cons c commands ih =>
    rw [List.foldl_cons, ih, prepared_apply, List.mem_cons, or_assoc, eq_comm (a := c)]

/-- A command adds its count, up to the greatest count that there is. -/
theorem toNat_events_apply (plan : Plan) (c : Command) :
    (plan.apply c).events.toNat = min (plan.events.toNat + c.count) (UInt64.size - 1) := by
  have hbound : plan.events.toNat < UInt64.size := plan.events.toNat_lt_size
  cases c with
  | beamOn n => exact toNat_addCounts plan.events n
  | _ => simp only [apply, Command.count]; omega

/-- The sum is stopped at the greatest count after every command, and comes to the same as if it had
been stopped once. -/
theorem toNat_events_foldl (commands : List Command) (plan : Plan) :
    (commands.foldl apply plan).events.toNat =
      min (plan.events.toNat + (commands.map Command.count).sum) (UInt64.size - 1) := by
  induction commands generalizing plan with
  | nil =>
    have hbound : plan.events.toNat < UInt64.size := plan.events.toNat_lt_size
    simp only [List.foldl_nil, List.map_nil, List.sum_nil]
    omega
  | cons c commands ih =>
    rw [List.foldl_cons, ih, toNat_events_apply, List.map_cons, List.sum_cons]
    omega

/-! ## Plans

Two plans are the same if no setting tells them apart, and no setting looks at more than the
commands of its kind. -/

/-- A plan is made of its settings, its events and whether it is prepared. So plans are compared by
these. -/
theorem eq_of_get {p q : Plan} (hget : ∀ s : Setting, s.get p = s.get q)
    (hprepared : p.prepared = q.prepared) (hevents : p.events = q.events) : p = q := by
  obtain ⟨⟨material, thickness, magnet, field⟩, ⟨particle, energy, position, direction⟩, file,
    events, prepared⟩ := p
  have hmaterial := hget .targetMaterial
  have hthickness := hget .targetThickness
  have hmagnet := hget .useMagnet
  have hfield := hget .magnetField
  have hparticle := hget .particle
  have henergy := hget .energy
  have hdirection := hget .direction
  have hposition := hget .position
  have hfile := hget .outputFile
  simp only [Setting.get] at *
  subst_vars
  rfl

/-- Two lists with the same commands of every kind that has an effect, each kind in the same order,
make the same plan. -/
theorem ofCommands_congr {cs ds : List Command}
    (h : ∀ k : Command.Kind, k ≠ .verbosity → Command.ofKind k cs = Command.ofKind k ds) :
    ofCommands cs = ofCommands ds := by
  apply eq_of_get
  · intro s
    rw [ofCommands, ofCommands, s.get_foldl, s.get_foldl, ← s.filterMap_ofKind cs,
      ← s.filterMap_ofKind ds, h s.kind s.kind_ne_verbosity]
  · have hmem : ∀ l : List Command, Command.prepare ∈ l ↔
        Command.prepare ∈ Command.ofKind .prepare l := by
      intro l
      simp [Command.mem_ofKind, Command.kind]
    rw [Bool.eq_iff_iff, ofCommands, ofCommands, prepared_foldl, prepared_foldl, hmem cs, hmem ds,
      h .prepare (by simp)]
  · rw [← UInt64.toNat_inj, ofCommands, ofCommands, toNat_events_foldl, toNat_events_foldl,
      ← Command.sum_count_ofKind cs, ← Command.sum_count_ofKind ds, h .beamOn (by simp)]

/-- Without the verbosity commands the plan is the same. -/
theorem ofCommands_filter_verbosity (commands : List Command) :
    ofCommands (commands.filter (·.kind ≠ .verbosity)) = ofCommands commands := by
  apply ofCommands_congr
  intro k hk
  simp only [Command.ofKind, List.filter_filter]
  apply List.filter_congr
  intro c _
  by_cases hkind : c.kind = k
  · simp [hkind, hk]
  · simp [hkind]

/-- The number of events does not depend on the order of the commands. -/
theorem events_ofCommands_perm {cs ds : List Command} (h : cs.Perm ds) :
    (ofCommands cs).events = (ofCommands ds).events := by
  rw [← UInt64.toNat_inj, ofCommands, ofCommands, toNat_events_foldl, toNat_events_foldl,
    (h.map Command.count).sum_nat]

/-- **The last writer of a setting wins, and the events add up in any order.** A setting is what the
last command of its kind gives, or what it is by default; the run is prepared if any command prepares
it; the events are the sum of all counts, or the greatest count if that is less. So verbosity makes no
difference, the plan depends on the commands of each other kind in their order, and the events on no
order at all. -/
theorem ofCommands_lastWriter (commands : List Command) :
    (∀ s : Setting, s.get (ofCommands commands) =
      (commands.filterMap s.set?).getLast?.getD (s.get default)) ∧
    ((ofCommands commands).prepared = true ↔ Command.prepare ∈ commands) ∧
    (ofCommands commands).events.toNat =
      min (commands.map Command.count).sum (UInt64.size - 1) ∧
    ofCommands (commands.filter (·.kind ≠ .verbosity)) = ofCommands commands ∧
    (∀ others : List Command,
      (∀ k : Command.Kind, k ≠ .verbosity → Command.ofKind k commands = Command.ofKind k others) →
        ofCommands commands = ofCommands others) ∧
    ∀ others : List Command, commands.Perm others →
      (ofCommands commands).events = (ofCommands others).events := by
  refine ⟨?settings, ?prepared, ?events, ?verbosity, ?kinds, ?order⟩
  case settings =>
    intro s
    exact s.get_foldl commands default
  case prepared => simp [ofCommands, prepared_foldl, default]
  case events =>
    have hzero : default.events.toNat = 0 := rfl
    rw [ofCommands, toNat_events_foldl, hzero, Nat.zero_add]
  case verbosity => exact ofCommands_filter_verbosity commands
  case kinds =>
    intro others h
    exact ofCommands_congr h
  case order =>
    intro others h
    exact events_ofCommands_perm h

end Plan

end Telescope
