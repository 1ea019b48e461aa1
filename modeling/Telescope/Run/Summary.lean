import Telescope.Decimal.Fixed
import Telescope.Event.Outcome
import Telescope.Moments
import Telescope.Unit

/-!
# Run summaries

A summary counts the events of a run by their outcome and holds the moments of the reconstructed
quantities. The summaries of several workers are merged into that of the whole run.
-/

namespace Telescope

/-- What a run has come to. -/
structure Summary where
  /-- all events -/
  events : UInt64
  /-- the incomplete ones -/
  incomplete : UInt64
  /-- the degenerate ones -/
  degenerate : UInt64
  /-- the scattering angles in space -/
  theta3d : Moments
  /-- their horizontal projections -/
  thetaX : Moments
  /-- their vertical projections -/
  thetaY : Moments
  /-- the momenta lost -/
  deltaP : Moments
  /-- the energies left in the calorimeter -/
  caloEdep : Moments

namespace Summary

/-- A run without events. -/
def empty : Summary :=
  ⟨0, 0, 0, Moments.empty, Moments.empty, Moments.empty, Moments.empty, Moments.empty⟩

instance : Inhabited Summary := ⟨empty⟩

/-- One more event. -/
def record (s : Summary) : Outcome → Summary
  | .accepted row =>
    { s with
      events := s.events + 1
      theta3d := s.theta3d.push row.theta3d
      thetaX := s.thetaX.push row.thetaX
      thetaY := s.thetaY.push row.thetaY
      deltaP := s.deltaP.push row.deltaP
      caloEdep := s.caloEdep.push row.caloEdep }
  | .incomplete => { s with events := s.events + 1, incomplete := s.incomplete + 1 }
  | .degenerate _ => { s with events := s.events + 1, degenerate := s.degenerate + 1 }

/-- The number of accepted events: each one adds to the moments. -/
def accepted (s : Summary) : UInt64 := s.theta3d.count

/-- The summary of two runs. -/
def merge (s t : Summary) : Summary where
  events := s.events + t.events
  incomplete := s.incomplete + t.incomplete
  degenerate := s.degenerate + t.degenerate
  theta3d := s.theta3d.merge t.theta3d
  thetaX := s.thetaX.merge t.thetaX
  thetaY := s.thetaY.merge t.thetaY
  deltaP := s.deltaP.merge t.deltaP
  caloEdep := s.caloEdep.merge t.caloEdep

/-- The summary in one line. -/
def describe (s : Summary) : String :=
  "events " ++ toString s.events.toNat ++ " accepted " ++ toString s.accepted.toNat
    ++ " incomplete " ++ toString s.incomplete.toNat ++ " degenerate " ++ toString s.degenerate.toNat
    ++ " | thetaX rms " ++ Fixed.write 4 (s.thetaX.rms / Unit.mrad)
    ++ " mrad, thetaY rms " ++ Fixed.write 4 (s.thetaY.rms / Unit.mrad)
    ++ " mrad, <deltaP> " ++ Fixed.write 3 (s.deltaP.mean / Unit.mev)
    ++ " MeV, <caloEdep> " ++ Fixed.write 3 (s.caloEdep.mean / Unit.mev) ++ " MeV"

end Summary

/-- The master of a run: it merges what the workers return. -/
structure Master where
  /-- the summaries merged so far -/
  total : Summary
  /-- their number -/
  workers : Nat

namespace Master

/-- Nothing merged yet. -/
def fresh : Master := ⟨Summary.empty, 0⟩

instance : Inhabited Master := ⟨fresh⟩

/-- Merges the summary of a worker. -/
def merge (master : Master) (summary : Summary) : Master :=
  ⟨master.total.merge summary, master.workers + 1⟩

/-- What the master says at the end. -/
def report (master : Master) : String :=
  "merged " ++ toString master.workers ++ " worker(s): " ++ master.total.describe

end Master

end Telescope
