import Telescope.Event.Outcome

/-!
# Metrics

All workers of a run count their events in one set of counters. Each event is counted in one step,
so the counters do not depend on the order in which the workers come.
-/

namespace Telescope

/-- The counters. -/
structure Metrics where
  /-- all events -/
  processed : UInt64
  /-- the accepted ones -/
  accepted : UInt64
  /-- the incomplete ones -/
  incomplete : UInt64
  /-- the degenerate ones -/
  degenerate : UInt64
deriving DecidableEq, Repr

namespace Metrics

/-- Nothing counted. -/
def zero : Metrics := ⟨0, 0, 0, 0⟩

instance : Inhabited Metrics := ⟨zero⟩

/-- One more event. -/
def count (m : Metrics) : Outcome → Metrics
  | .accepted _ => { m with processed := m.processed + 1, accepted := m.accepted + 1 }
  | .incomplete => { m with processed := m.processed + 1, incomplete := m.incomplete + 1 }
  | .degenerate _ => { m with processed := m.processed + 1, degenerate := m.degenerate + 1 }

end Metrics

end Telescope
