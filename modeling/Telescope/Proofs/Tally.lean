import Mathlib.Data.List.Basic
import Telescope.Run.Metrics
import Telescope.Run.Summary

/-!
# Tallies

Summaries and the shared counters count the same four things. This module names them (`Counter`), so
that a law about counting is stated once for all of them, and follows a summary through the outcomes
of a run:

* `Summary.get_foldl_record`: a counter grows by the number of outcomes that it counts;
* `Summary.moments_foldl_record`: the moments of a quantity are those of its values in the accepted
  rows, in their order.

Counters have 64 bits. The laws hold for lists of any length, in the arithmetic of the counters.

The tally of a list of outcomes is a natural number and has no bound. It is put into 64 bits where a
counter is compared with it, and there the bound of the list is asked for, if at all.
-/

namespace Telescope

/-! ## Counters

Of the four counters three are for the three kinds of outcomes, and the first is for all. That they
balance is a fact about outcomes (`tally_balance`); that the program keeps them so is shown from it. -/

/-- One of the numbers that are counted in a run. -/
inductive Counter
  /-- all events -/
  | processed
  /-- the accepted ones -/
  | accepted
  /-- the incomplete ones -/
  | incomplete
  /-- the degenerate ones -/
  | degenerate
deriving DecidableEq, Repr

/-- Whether an event with this outcome counts. -/
def Outcome.counts : Outcome → Counter → Bool
  | _, .processed => true
  | .accepted _, .accepted => true
  | .incomplete, .incomplete => true
  | .degenerate _, .degenerate => true
  | _, _ => false

/-- The number of outcomes that count. -/
def tally (outcomes : List Outcome) (c : Counter) : Nat :=
  outcomes.countP fun o => o.counts c

/-- An outcome adds one to the tallies that it counts for. -/
theorem tally_cons (o : Outcome) (outcomes : List Outcome) (c : Counter) :
    tally (o :: outcomes) c = tally outcomes c + if o.counts c then 1 else 0 :=
  List.countP_cons

/-- The same in the arithmetic of the counters. -/
theorem ofNat_tally_cons (o : Outcome) (outcomes : List Outcome) (c : Counter) :
    UInt64.ofNat (tally (o :: outcomes) c) =
      (if o.counts c then 1 else 0) + UInt64.ofNat (tally outcomes c) := by
  rw [tally_cons, UInt64.ofNat_add, UInt64.add_comm]
  cases o.counts c <;> rfl

/-- No more count than there are. -/
theorem tally_le_length (outcomes : List Outcome) (c : Counter) :
    tally outcomes c ≤ outcomes.length :=
  List.countP_le_length

/-- A number that is small enough is kept by a counter as it is. -/
theorem toNat_ofNat_of_le {k n : Nat} (hk : k ≤ n) (hn : n < UInt64.size) :
    (UInt64.ofNat k).toNat = k :=
  UInt64.toNat_ofNat_of_lt' (Nat.lt_of_le_of_lt hk hn)

/-- Tallies of lists add up. -/
theorem tally_append (xs ys : List Outcome) (c : Counter) :
    tally (xs ++ ys) c = tally xs c + tally ys c :=
  List.countP_append

/-- Every event is processed. -/
@[simp] theorem tally_processed (outcomes : List Outcome) :
    tally outcomes .processed = outcomes.length :=
  List.countP_eq_length.2 fun _ _ => rfl

/-- The accepted events are those with a row. -/
theorem tally_accepted (outcomes : List Outcome) :
    tally outcomes .accepted = (outcomes.filterMap Outcome.row?).length := by
  induction outcomes with
  | nil => rfl
  | cons o rest ih =>
    rw [tally_cons, ih, List.filterMap_cons]
    cases o <;> rfl

/-- Every event is of one kind. -/
theorem tally_balance (outcomes : List Outcome) :
    tally outcomes .processed =
      tally outcomes .accepted + tally outcomes .incomplete + tally outcomes .degenerate := by
  induction outcomes with
  | nil => rfl
  | cons o rest ih =>
    simp only [tally_cons]
    cases o <;> simp only [Outcome.counts] <;> grind

/-- A tally depends on the outcomes, not on their order. -/
theorem tally_perm {xs ys : List Outcome} (h : xs.Perm ys) (c : Counter) : tally xs c = tally ys c :=
  h.countP_eq _

namespace Metrics

/-- The number shown by a counter. -/
def get (m : Metrics) : Counter → UInt64
  | .processed => m.processed
  | .accepted => m.accepted
  | .incomplete => m.incomplete
  | .degenerate => m.degenerate

/-- New counters show zero. -/
@[simp] theorem get_zero (c : Counter) : zero.get c = 0 := by
  cases c <;> rfl

/-- Counting an outcome adds one where it counts. -/
theorem get_count (m : Metrics) (o : Outcome) (c : Counter) :
    (m.count o).get c = m.get c + if o.counts c then 1 else 0 := by
  cases o <;> cases c <;> simp [count, get, Outcome.counts]

/-- A counter grows by the number of outcomes that it counts. -/
theorem get_foldl_count (m : Metrics) (outcomes : List Outcome) (c : Counter) :
    (outcomes.foldl count m).get c = m.get c + UInt64.ofNat (tally outcomes c) := by
  induction outcomes generalizing m with
  | nil => simp [tally]
  | cons o rest ih => rw [List.foldl_cons, ih, get_count, ofNat_tally_cons, UInt64.add_assoc]

end Metrics

namespace Summary

/-- The number of events of a summary that count. -/
def get (s : Summary) : Counter → UInt64
  | .processed => s.events
  | .accepted => s.accepted
  | .incomplete => s.incomplete
  | .degenerate => s.degenerate

/-- An empty summary has counted nothing. -/
@[simp] theorem get_empty (c : Counter) : empty.get c = 0 := by
  cases c <;> rfl

/-- Recording an outcome adds one where it counts. -/
theorem get_record (s : Summary) (o : Outcome) (c : Counter) :
    (s.record o).get c = s.get c + if o.counts c then 1 else 0 := by
  cases o <;> cases c <;> simp [record, get, accepted, Moments.push, Outcome.counts]

/-- Merging adds the counters. -/
theorem get_merge (s t : Summary) (c : Counter) : (s.merge t).get c = s.get c + t.get c := by
  cases c <;> rfl

/-- A counter grows by the number of outcomes that count. -/
theorem get_foldl_record (s : Summary) (outcomes : List Outcome) (c : Counter) :
    (outcomes.foldl record s).get c = s.get c + UInt64.ofNat (tally outcomes c) := by
  induction outcomes generalizing s with
  | nil => simp [tally]
  | cons o rest ih => rw [List.foldl_cons, ih, get_record, ofNat_tally_cons, UInt64.add_assoc]

end Summary

/-! ## Moments

The moments of a quantity are a count and two sums. The sums are taken in the order of the rows,
from zero, and nothing is regrouped. -/

namespace Moments

/-- The moments of a list of values. -/
def ofValues (values : List Float) : Moments :=
  values.foldl push empty

/-- Values go on where the moments are, one after the other. -/
theorem foldl_push (s : Moments) (values : List Float) :
    values.foldl push s =
      ⟨s.count + UInt64.ofNat values.length, values.foldl (· + ·) s.sum,
        (values.map fun v => v * v).foldl (· + ·) s.squares⟩ := by
  induction values generalizing s with
  | nil => simp
  | cons v rest ih =>
    rw [List.foldl_cons, ih]
    simp only [push, List.length_cons, List.foldl_cons, List.map_cons]
    congr 1
    rw [UInt64.ofNat_add, UInt64.add_assoc, UInt64.add_comm (UInt64.ofNat _)]
    rfl

/-- The sums of values and of squares are taken from the left, starting from zero. -/
theorem ofValues_eq (values : List Float) :
    ofValues values =
      ⟨UInt64.ofNat values.length, values.foldl (· + ·) 0.0,
        (values.map fun v => v * v).foldl (· + ·) 0.0⟩ := by
  rw [ofValues, foldl_push]
  simp [empty]

end Moments

/-- One of the quantities whose moments a summary holds. -/
inductive Quantity
  /-- the scattering angle in space -/
  | theta3d
  /-- its horizontal projection -/
  | thetaX
  /-- its vertical projection -/
  | thetaY
  /-- the momentum lost -/
  | deltaP
  /-- the energy left in the calorimeter -/
  | caloEdep
deriving DecidableEq, Repr

/-- The value of a quantity in a row. -/
def Row.value (row : Row) : Quantity → Float
  | .theta3d => row.theta3d
  | .thetaX => row.thetaX
  | .thetaY => row.thetaY
  | .deltaP => row.deltaP
  | .caloEdep => row.caloEdep

/-- The values of a quantity in the rows of the accepted outcomes. -/
def acceptedValues (outcomes : List Outcome) (q : Quantity) : List Float :=
  (outcomes.filterMap Outcome.row?).map fun row => row.value q

/-- There is one value for each accepted outcome. -/
theorem length_acceptedValues (outcomes : List Outcome) (q : Quantity) :
    (acceptedValues outcomes q).length = tally outcomes .accepted := by
  rw [acceptedValues, List.length_map, tally_accepted]

namespace Summary

/-- The moments of a quantity. -/
def moments (s : Summary) : Quantity → Moments
  | .theta3d => s.theta3d
  | .thetaX => s.thetaX
  | .thetaY => s.thetaY
  | .deltaP => s.deltaP
  | .caloEdep => s.caloEdep

/-- An empty summary has no values. -/
@[simp] theorem moments_empty (q : Quantity) : empty.moments q = Moments.empty := by
  cases q <;> rfl

/-- Merging merges the moments of each quantity. -/
theorem moments_merge (s t : Summary) (q : Quantity) :
    (s.merge t).moments q = (s.moments q).merge (t.moments q) := by
  cases q <;> rfl

/-- Only accepted events have values. -/
theorem moments_record (s : Summary) (o : Outcome) (q : Quantity) :
    (s.record o).moments q = (acceptedValues [o] q).foldl Moments.push (s.moments q) := by
  cases o <;> cases q <;> rfl

/-- The moments of a quantity are continued by its values in the accepted rows. -/
theorem moments_foldl_record (s : Summary) (outcomes : List Outcome) (q : Quantity) :
    (outcomes.foldl record s).moments q =
      (acceptedValues outcomes q).foldl Moments.push (s.moments q) := by
  induction outcomes generalizing s with
  | nil => rfl
  | cons o rest ih =>
    rw [List.foldl_cons, ih, moments_record]
    cases o <;> rfl

end Summary

end Telescope
