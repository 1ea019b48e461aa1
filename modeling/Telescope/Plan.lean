import Telescope.Command
import Telescope.Detector.Layout

/-!
# Run plans

What the commands of a macro ask for together: the detector, the gun, the file of the table and the
number of events. Every command sets one part of the plan; only the event counts add up, and stop at
the greatest 64-bit number.
-/

namespace Telescope

/-- What is to be run. -/
structure Plan where
  /-- the detector -/
  detector : Detector.Config
  /-- the gun -/
  gun : Gun
  /-- the file for the table, if one was named -/
  outputFile : Option String
  /-- the number of events asked for so far -/
  events : UInt64
  /-- whether the run was prepared -/
  prepared : Bool

namespace Plan

/-- The plan before any command. -/
def default : Plan where
  detector := Detector.Config.default
  gun := Gun.default
  outputFile := none
  events := 0
  prepared := false

instance : Inhabited Plan := ⟨default⟩

/-- The sum of two counts, or the greatest count if that is less. -/
def addCounts (a b : UInt64) : UInt64 :=
  if a.toNat + b.toNat < UInt64.size then a + b else UInt64.ofNat (UInt64.size - 1)

/-- Counts are added as numbers and stop at the greatest. -/
theorem toNat_addCounts (a b : UInt64) :
    (addCounts a b).toNat = min (a.toNat + b.toNat) (UInt64.size - 1) := by
  have size_eq : UInt64.size = 18446744073709551616 := rfl
  unfold addCounts
  split
  · rw [UInt64.toNat_add]
    omega
  · have greatest : (UInt64.ofNat (UInt64.size - 1)).toNat = UInt64.size - 1 := by decide
    omega

/-- What a command changes. -/
def apply (plan : Plan) : Command → Plan
  | .targetMaterial name => { plan with detector := { plan.detector with targetMaterial := name } }
  | .targetThickness t => { plan with detector := { plan.detector with targetThickness := t } }
  | .useMagnet on => { plan with detector := { plan.detector with useMagnet := on } }
  | .magnetField b => { plan with detector := { plan.detector with magnetField := b } }
  | .gunParticle p => { plan with gun := { plan.gun with particle := p } }
  | .gunEnergy e => { plan with gun := { plan.gun with kineticEnergy := e } }
  | .gunDirection d => { plan with gun := { plan.gun with direction := d } }
  | .gunPosition p => { plan with gun := { plan.gun with position := p } }
  | .outputFile name => { plan with outputFile := some name }
  | .prepare => { plan with prepared := true }
  | .beamOn n => { plan with events := addCounts plan.events n }
  | .verbosity => plan

/-- The plan that a list of commands makes. -/
def ofCommands (commands : List Command) : Plan :=
  commands.foldl apply default

end Plan

end Telescope
