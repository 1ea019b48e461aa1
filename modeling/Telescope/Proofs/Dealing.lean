import Mathlib.Data.List.Forall2
import Mathlib.Data.Nat.ModEq
import Telescope.Run.Replay

/-!
# Dealing events to workers

`Replay.share` drops the first elements of a list and then takes every `n`-th. Here it is said by
places: the share of worker `w` holds the elements whose place leaves the rest `w` when divided by
`n` (`share_eq_atRest`). Every place leaves one of the rests, so the shares together are a
rearrangement of the whole list (`flatMap_share_perm`), whatever the length of the list and however
many workers there are.

The elements are told apart by their places, not by what they are: equal events may go to different
workers. Order is kept within a share, and only there.
-/

namespace Telescope.Replay

variable {α β : Type}

/-- The elements of a list at the places that leave the rest `w` when divided by `n`, in order. -/
def atRest (n w : Nat) (xs : List α) : List α :=
  (xs.zipIdx.filter fun p => p.2 % n = w).map Prod.fst

/-- Counting the places from `w + k` on and looking for the rest `w` is counting from `k` on and
looking for the rest zero. -/
theorem filter_zipIdx_shift {n w : Nat} (hw : w < n) (k : Nat) (xs : List α) :
    ((xs.zipIdx (w + k)).filter fun p => p.2 % n = w).map Prod.fst =
      (xs.zipIdx k).filterMap fun (x, i) => if i % n = 0 then some x else none := by
  induction xs generalizing k with
  | nil => rfl
  | cons x rest ih =>
    have hrest : (w + k) % n = w ↔ k % n = 0 := by
      constructor
      · intro h
        have hmod : w + k ≡ w + 0 [MOD n] := h.trans (Nat.mod_eq_of_lt hw).symm
        simpa [Nat.ModEq] using Nat.ModEq.add_left_cancel' w hmod
      · intro h
        rw [Nat.add_mod, h, Nat.add_zero, Nat.mod_mod, Nat.mod_eq_of_lt hw]
    have hnext := ih (k + 1)
    rw [List.zipIdx_cons, List.zipIdx_cons, Nat.add_assoc]
    by_cases h : k % n = 0
    · simp [hrest.2 h, h, hnext]
    · simp [mt hrest.1 h, h, hnext]

/-- The share of a worker, by the places of its elements. The worker drops as many as its number,
and the count from there on is shifted by it. -/
theorem share_eq_atRest {n w : Nat} (hw : w < n) (xs : List α) :
    share n w xs = atRest n w xs := by
  -- before the place `w` nothing is taken, from there on every `n`-th element is
  have hfrom : ∀ (d k : Nat) (ys : List α), d + k = w →
      ((ys.zipIdx k).filter fun p => p.2 % n = w).map Prod.fst = everyNth n (ys.drop d) := by
    intro d
    induction d with
    | zero =>
      intro k ys hk
      obtain rfl : k = w := by omega
      exact filter_zipIdx_shift hw 0 ys
    | succ d ih =>
      intro k ys hk
      cases ys with
      | nil => rfl
      | cons y rest =>
        have hne : k % n ≠ w := by
          rw [Nat.mod_eq_of_lt (by omega)]
          omega
        rw [List.zipIdx_cons, List.filter_cons_of_neg (by simpa using hne), List.drop_succ_cons]
        exact ih (k + 1) rest (by omega)
  exact (hfrom w 0 xs rfl).symm

/-- What is done to every element may as well be done before dealing. -/
theorem share_map (n w : Nat) (f : α → β) (xs : List α) :
    share n w (xs.map f) = (share n w xs).map f := by
  unfold share everyNth
  rw [← List.map_drop, List.zipIdx_map, List.filterMap_map, List.map_filterMap]
  congr 1
  funext ⟨x, i⟩
  simp only [Function.comp_apply, Prod.map_apply, id]
  by_cases h : i % n = 0
  · rw [if_pos h, if_pos h, Option.map_some]
  · rw [if_neg h, if_neg h, Option.map_none]

/-- A share has only elements of the list. -/
theorem mem_of_mem_share {n w : Nat} {x : α} {xs : List α} (h : x ∈ share n w xs) : x ∈ xs := by
  obtain ⟨⟨y, i⟩, hy, hyx⟩ := List.mem_filterMap.1 h
  have hmem : y ∈ xs.drop w := List.fst_mem_of_mem_zipIdx hy
  simp only [Option.ite_none_right_eq_some, Option.some.injEq] at hyx
  exact List.mem_of_mem_drop (hyx.2 ▸ hmem)

/-- Lists that correspond element by element are dealt alike. -/
theorem forall₂_share {R : α → β → Prop} {xs : List α} {ys : List β} (h : List.Forall₂ R xs ys)
    (n w : Nat) : List.Forall₂ R (share n w xs) (share n w ys) := by
  obtain ⟨hlength, hpairs⟩ := List.forall₂_iff_zip.1 h
  -- both shares are the two sides of a share of the pairs
  have hxs : xs = (xs.zip ys).map Prod.fst := (List.map_fst_zip hlength.le).symm
  have hys : ys = (xs.zip ys).map Prod.snd := (List.map_snd_zip hlength.ge).symm
  generalize xs.zip ys = pairs at *
  subst hxs hys
  rw [share_map, share_map, List.forall₂_map_left_iff, List.forall₂_map_right_iff,
    List.forall₂_same]
  intro p hp
  exact hpairs (mem_of_mem_share hp)

/-- Picking out the elements of every key below `n` rearranges those with such a key. The induction
is on `n`: one more key adds the elements that have it. -/
theorem flatMap_filter_perm (key : α → Nat) (xs : List α) (n : Nat) :
    ((List.range n).flatMap fun w => xs.filter fun x => key x = w).Perm
      (xs.filter fun x => key x < n) := by
  induction n with
  | zero => simp
  | succ n ih =>
    rw [List.range_succ, List.flatMap_append, List.flatMap_singleton]
    have hsplit := List.filter_append_perm (fun x => decide (key x < n))
      (xs.filter fun x => key x < n + 1)
    rw [List.filter_filter, List.filter_filter] at hsplit
    have hbelow : (xs.filter fun x => decide (key x < n) && decide (key x < n + 1)) =
        xs.filter fun x => decide (key x < n) := by
      congr 1
      funext x
      rw [← Bool.decide_and]
      exact decide_eq_decide.2 (by omega)
    have hlast : (xs.filter fun x => (!decide (key x < n)) && decide (key x < n + 1)) =
        xs.filter fun x => decide (key x = n) := by
      congr 1
      funext x
      rw [← decide_not, ← Bool.decide_and]
      exact decide_eq_decide.2 (by omega)
    rw [hbelow, hlast] at hsplit
    exact (ih.append_right _).trans hsplit

/-- All shares together are the whole list, rearranged. Every place leaves a rest below the number
of workers, so nothing is left out, and it leaves only one. -/
theorem flatMap_share_perm {n : Nat} (hn : 0 < n) (xs : List α) :
    ((List.range n).flatMap fun w => share n w xs).Perm xs := by
  have hshares : ((List.range n).flatMap fun w => share n w xs) =
      ((List.range n).flatMap fun w =>
        xs.zipIdx.filter fun p => p.2 % n = w).map Prod.fst := by
    rw [List.map_flatMap]
    refine List.flatMap_congr fun w hw => ?_
    exact share_eq_atRest (List.mem_range.1 hw) xs
  have hall : (xs.zipIdx.filter fun p => decide (p.2 % n < n)) = xs.zipIdx :=
    List.filter_eq_self.2 fun p _ => decide_eq_true (Nat.mod_lt _ hn)
  have hperm := (flatMap_filter_perm (fun p : α × Nat => p.2 % n) xs.zipIdx n).map Prod.fst
  rw [hall, List.zipIdx_map_fst] at hperm
  rw [hshares]
  exact hperm

end Telescope.Replay
