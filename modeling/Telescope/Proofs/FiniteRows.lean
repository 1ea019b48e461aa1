import Telescope.Proofs.Lengths
import Telescope.Proofs.ReplayRefinement

/-!
# Rows of finite events

An event whose positions, momenta and energies are finite can still have infinite results, and the
difference of two of them is NaN.

* `isNaN_add_of_isFinite`, `IsNonneg.isNaN_sub_iff`, `isNaN_div`: which results are NaN;
* `Angles`: the two functions that angles are taken from, as a parameter, and what is expected of them;
* `Angles.numbers_of_endsIn`: what the row of a finite event holds (`Row.Numbers`). The momenta are
  lengths and may be infinite, and the record has NaN exactly if both are (`Numbers.hasNaN_iff`);
* `Moments.isNumber_ofValues`, `Moments.isNaN_sum_ofValues`: sums of finite values stay numbers, and NaN
  stays NaN;
* `Angles.rows_of_finite_events`: all of it for a trace.

Finite is what can be asked of the numbers of a trace, and it is not enough. Lengths are roots of
sums of squares, and a sum of squares overflows long before its summands do; two infinite lengths
have no difference. The rest of a row is safe, since directions are only taken where a length is
finite.

The angles come from two functions whose results no definition fixes. They are a parameter here,
with the bounds that the documentation of every such function gives, and the functions of the
processor are one instance of it.
-/

namespace Telescope

open Double

namespace Double

open Float.Model (Format UnpackedFloat)
open Float.Model.UnpackedFloat

/-! ## Results that are numbers

Finite results and results that are numbers are two things, and each operation keeps one of them
under its own condition. Infinity minus infinity is the only way out of the numbers that a row can
take. -/

variable {x y : Float} {q r : ℚ}

/-- Packing keeps infinities. -/
theorem isNaN_pack_infinity {a : UnpackedFloat} {s : Sign} (h : a = .infinity s) :
    (Float.ofModel (.pack a)).isNaN = false := by
  subst h
  cases s <;> rfl

/-- It keeps what is no number, too. -/
theorem isNaN_pack_notANumber {a : UnpackedFloat} (h : a = .notANumber) :
    (Float.ofModel (.pack a)).isNaN = true := by
  subst h
  rfl

/-- Changing the sign changes nothing here. -/
theorem isFinite_neg (a : UnpackedFloat) : a.neg.isFinite = a.isFinite := by
  cases a <;> rfl

/-- A finite summand makes no number NaN. -/
theorem isNaN_add_of_isFinite (hx : x.isNaN = false) (hy : y.isFinite = true) :
    (x + y).isNaN = false := by
  cases hfinite : x.isFinite with
  | true => exact (isRounded_add hfinite hy).isNaN
  | false =>
    obtain ⟨s, hs⟩ := exists_unpack_infinity hx hfinite
    apply isNaN_pack_infinity (s := s)
    rw [hs]
    exact infinity_add s hy

/-- A difference of numbers from zero on is NaN if both are infinite, and in no other case. -/
theorem IsNonneg.isNaN_sub_iff (hx : IsNonneg x) (hy : IsNonneg y) :
    (x - y).isNaN = true ↔ x.isFinite = false ∧ y.isFinite = false := by
  have hnumber : (x - y).isNaN = false → ¬ (x - y).isNaN = true := by
    intro h
    rw [h]
    exact Bool.false_ne_true
  cases hfinite : x.isFinite with
  | true =>
    refine iff_of_false (hnumber ?_) fun h => absurd h.1.symm Bool.false_ne_true
    cases hfinite' : y.isFinite with
    | true => exact (isRounded_sub hfinite hfinite').isNaN
    | false =>
      apply isNaN_pack_infinity (s := .negative)
      rw [unpacked_sub_eq, hy.unpack_eq hfinite']
      exact add_infinity .negative hfinite
  | false =>
    cases hfinite' : y.isFinite with
    | true =>
      refine iff_of_false (hnumber ?_) fun h => absurd h.2.symm Bool.false_ne_true
      apply isNaN_pack_infinity (s := .positive)
      rw [unpacked_sub_eq, hx.unpack_eq hfinite]
      exact infinity_add .positive ((isFinite_neg _).trans hfinite')
    | false =>
      refine iff_of_true ?_ ⟨rfl, rfl⟩
      apply isNaN_pack_notANumber
      rw [hx.unpack_eq hfinite, hy.unpack_eq hfinite']
      simp [UnpackedFloat.sub]

/-- Division by a number that is finite and not zero makes no number NaN, and no NaN a number. -/
theorem isNaN_div (x : Float) (hy : y.isFinite = true) (hne : value y ≠ 0) :
    (x / y).isNaN = x.isNaN := by
  cases hnan : x.isNaN with
  | true =>
    apply isNaN_pack_notANumber
    change x.toModel.unpack.isNaN = true at hnan
    cases hparts : x.toModel.unpack with
    | notANumber => rfl
    | _ =>
      rw [hparts] at hnan
      exact nomatch hnan
  | false =>
    cases hfinite : x.isFinite with
    | true => exact (isRounded_div hfinite hy hne).isNaN
    | false =>
      obtain ⟨s, hs⟩ := exists_unpack_infinity hnan hfinite
      change y.toModel.unpack.isFinite = true at hy
      change exactValue y.toModel.unpack ≠ 0 at hne
      cases hparts : y.toModel.unpack with
      | notANumber | infinity t =>
        rw [hparts] at hy
        exact nomatch hy
      | zero t =>
        rw [hparts] at hne
        exact absurd rfl hne
      | finite t m e hm =>
        apply isNaN_pack_infinity (s := s / t)
        rw [hs, hparts]
        rfl

/-- NaN stays NaN. -/
theorem isNaN_add_of_isNaN (h : x.isNaN = true ∨ y.isNaN = true) : (x + y).isNaN = true := by
  have hnan : ∀ a : UnpackedFloat, a.isNaN = true → a = .notANumber := by
    intro a ha
    cases a with
    | notANumber => rfl
    | _ => exact nomatch ha
  apply isNaN_pack_notANumber
  obtain h | h := h
  · rw [hnan _ h]
    rfl
  · rw [hnan _ h]
    cases x.toModel.unpack <;> rfl

/-- A result within bounds that are a double is finite, and within the bounds. -/
theorem IsRounded.abs_value_le (h : IsRounded q x) (hy : Exactly y r) (hq : |q| ≤ r) :
    x.isFinite = true ∧ |value x| ≤ r := by
  refine ⟨h.isFinite hy hq, ?_⟩
  rw [h.value_eq, abs_rounded]
  exact (rounded_mono hq).trans_eq hy.rounded_eq

/-- Four, which is more than half a turn. -/
theorem exactly_four : Exactly 4.0 4 := by with_unfolding_all decide

/-- Eight, which is more than the difference of two angles. -/
theorem exactly_eight : Exactly 8.0 8 := by with_unfolding_all decide

/-- Numbers of moderate size have a finite difference. -/
theorem isFinite_sub_of_abs_le (hx : x.abs ≤ 4.0) (hy : y.abs ≤ 4.0) : (x - y).isFinite = true := by
  obtain ⟨hx', hxvalue⟩ := abs_value_le_of_abs_le exactly_four hx
  obtain ⟨hy', hyvalue⟩ := abs_value_le_of_abs_le exactly_four hy
  apply (isRounded_sub hx' hy').isFinite exactly_eight
  calc |value x - value y| ≤ |value x| + |value y| := abs_sub _ _
    _ ≤ 8 := by linarith

/-- A sum of finite numbers may become infinite, but stays a number. -/
theorem isNaN_foldl_add {xs : List Float} {start : Float} (hstart : start.isNaN = false)
    (hxs : ∀ x ∈ xs, x.isFinite = true) : (xs.foldl (· + ·) start).isNaN = false := by
  induction xs generalizing start with
  | nil => exact hstart
  | cons x xs ih =>
    obtain ⟨hx, hrest⟩ := List.forall_mem_cons.1 hxs
    exact ih (isNaN_add_of_isFinite hstart hx) hrest

end Double

/-- A number that is held between two bounds is between them. -/
theorem clamp_mem {x lower upper : Float} (hx : x.isNaN = false) (h : lower ≤ upper) :
    lower ≤ clamp x lower upper ∧ clamp x lower upper ≤ upper := by
  obtain ⟨hlower, hupper⟩ := isNaN_of_le h
  have hself : ∀ {y : Float}, y.isNaN = false → y ≤ y := by
    intro y hy
    rw [le_iff_value hy hy]
  unfold clamp
  split
  · exact ⟨hself hlower, h⟩
  · next hlow =>
    split
    · exact ⟨h, hself hupper⟩
    · next hhigh => exact ⟨le_of_not_lt hx hlower hlow, le_of_not_lt hupper hx hhigh⟩

namespace Vector3

variable {v w : Vector3}

/-- Directions have a finite scalar product, so the arc cosine is asked for a number of its domain. -/
theorem isFinite_dot_of_isWithin (hv : v.IsWithin 2.0) (hw : w.IsWithin 2.0) :
    (v.dot w).isFinite = true := by
  have hproduct : ∀ {x y : Float}, x.abs ≤ 2.0 → y.abs ≤ 2.0 →
      (x * y).isFinite = true ∧ |value (x * y)| ≤ 4 := by
    intro x y hx hy
    obtain ⟨hx', hxvalue⟩ := abs_value_le_of_abs_le exactly_two hx
    obtain ⟨hy', hyvalue⟩ := abs_value_le_of_abs_le exactly_two hy
    apply (isRounded_mul hx' hy').abs_value_le exactly_four
    rw [abs_mul]
    calc |value x| * |value y| ≤ 2 * 2 := mul_le_mul hxvalue hyvalue (abs_nonneg _) two_pos.le
      _ = 4 := by norm_num
  obtain ⟨hx, hxvalue⟩ := hproduct hv.1 hw.1
  obtain ⟨hy, hyvalue⟩ := hproduct hv.2.1 hw.2.1
  obtain ⟨hz, hzvalue⟩ := hproduct hv.2.2 hw.2.2
  obtain ⟨hplane, hplanevalue⟩ := (isRounded_add hx hy).abs_value_le exactly_eight
    ((abs_add_le _ _).trans (by linarith))
  have htwelve : Exactly 12.0 12 := by with_unfolding_all decide
  exact (isRounded_add hplane hz).isFinite htwelve ((abs_add_le _ _).trans (by linarith))

end Vector3

/-! ## Angles

`Ends` says how an event ends with a given pair of functions: everything but the angles of the row
is as `Telescope.Ends` has it. With the functions of the processor the two agree
(`ends_standard_iff`), so what is shown for all sound functions is shown for the program, if its
functions are sound. -/

/-- The functions that the angles of a row are taken from. -/
structure Angles where
  /-- the arc cosine -/
  acos : Float → Float
  /-- the angle of a point, from its height and its distance -/
  atan2 : Float → Float → Float

namespace Angles

/-- The two functions that the program calls. -/
def standard : Angles := ⟨Float.acos, Float.atan2⟩

/-- What is expected of the functions: angles of at most a half turn, which is less than four. -/
structure IsSound (a : Angles) : Prop where
  /-- the arc cosine has one for every number of its domain -/
  acos : ∀ x : Float, -1.0 ≤ x → x ≤ 1.0 → (a.acos x).abs ≤ 4.0
  /-- and every point has one -/
  atan2 : ∀ y z : Float, y.isNaN = false → z.isNaN = false → (a.atan2 y z).abs ≤ 4.0

/-- The row with its angles taken from these functions. -/
def measure (a : Angles) (incoming outgoing : Vector3) (row : Row) : Row :=
  { row with
    theta3d := a.acos (clamp (incoming.dot outgoing) (-1.0) 1.0)
    thetaX := a.atan2 outgoing.x outgoing.z - a.atan2 incoming.x incoming.z
    thetaY := a.atan2 outgoing.y outgoing.z - a.atan2 incoming.y incoming.z }

/-- How an event with these steps ends, with angles from these functions: as it does with those of the
processor, but for the angles of an accepted row. -/
inductive Ends (a : Angles) (sensitive : Detector.Sensitive) (steps : List Step) : Outcome → Prop
  /-- an event without a row has no angles -/
  | dropped {o : Outcome} (ends : Telescope.Ends sensitive steps o) (rowless : o.row? = none) :
      Ends a sensitive steps o
  /-- the angles of a row are those of its directions -/
  | accepted {row : Row} (ends : Telescope.Ends sensitive steps (.accepted row))
      (first : Fin 4 → Step) (hits : ∀ k, sensitive.FirstHit k steps (first k))
      (incoming outgoing : Vector3)
      (before : ((first 1).position - (first 0).position).direction? = some incoming)
      (behind : ((first 3).position - (first 2).position).direction? = some outgoing) :
      Ends a sensitive steps (.accepted (a.measure incoming outgoing row))

/-- An event ends like this in a detector, with angles from these functions. -/
def EndsIn (a : Angles) (layout : Detector.Layout) (e : TraceEvent) (o : Outcome) : Prop :=
  ∃ steps, e.place layout = .ok steps ∧ a.Ends layout.sensitive steps o

section

variable {a : Angles} {sensitive : Detector.Sensitive} {steps : List Step} {row : Row}

/-- The row of an accepted event is that of its first hits. This is where the fields of a row are
traced to the steps of the event. -/
theorem eq_of_ends_accepted (h : Telescope.Ends sensitive steps (.accepted row))
    {first : Fin 4 → Step} (hits : ∀ k, sensitive.FirstHit k steps (first k))
    {incoming outgoing : Vector3}
    (before : ((first 1).position - (first 0).position).direction? = some incoming)
    (behind : ((first 3).position - (first 2).position).direction? = some outgoing) :
    row =
      { theta3d := spaceAngle incoming outgoing
        thetaX := projectedAngle incoming.x incoming.z outgoing.x outgoing.z
        thetaY := projectedAngle incoming.y incoming.z outgoing.y outgoing.z
        pIn := (first 1).momentum.norm
        pOut := (first 2).momentum.norm
        deltaP := (first 1).momentum.norm - (first 2).momentum.norm
        xTarget := ((first 1).position.x + (first 2).position.x) / 2.0
        yTarget := ((first 1).position.y + (first 2).position.y) / 2.0
        caloEdep := (sensitive.deposits steps).foldl (· + ·) 0.0 } :=
  Outcome.accepted.inj (h.outcome_eq.symm.trans
    (Telescope.Ends.accepted first hits incoming outgoing before behind).outcome_eq)

/-- An accepted event is accepted with any angles. -/
theorem exists_ends_of_accepted (a : Angles) (h : Telescope.Ends sensitive steps (.accepted row)) :
    ∃ incoming outgoing, a.Ends sensitive steps (.accepted (a.measure incoming outgoing row)) := by
  cases id h with
  | accepted first hits incoming outgoing before behind =>
    exact ⟨incoming, outgoing, .accepted h first hits incoming outgoing before behind⟩

/-- With the functions of the processor nothing is changed. So a theorem for all pairs of functions
is one about the program, with its functions put in. -/
theorem ends_standard_iff {o : Outcome} :
    standard.Ends sensitive steps o ↔ Telescope.Ends sensitive steps o := by
  constructor
  · intro h
    cases h with
    | dropped ends rowless => exact ends
    | accepted ends first hits incoming outgoing before behind =>
      obtain rfl := eq_of_ends_accepted ends hits before behind
      exact ends
  · intro h
    cases id h with
    | accepted first hits incoming outgoing before behind =>
      exact .accepted h first hits incoming outgoing before behind
    | _ => exact .dropped h rfl

end

/-- With the functions of the processor that is how the event ends in a replay. -/
theorem endsIn_standard_iff {layout : Detector.Layout} {e : TraceEvent} {o : Outcome} :
    standard.EndsIn layout e o ↔ e.EndsIn layout o :=
  exists_congr fun _ => and_congr_right fun _ => ends_standard_iff

/-- Directions have finite angles. The arc cosine gets a number, and the bounds on both functions do
the rest. -/
theorem IsSound.isFinite_measure {a : Angles} (ha : a.IsSound) {incoming outgoing : Vector3}
    (hin : incoming.IsWithin 2.0) (hout : outgoing.IsWithin 2.0) (row : Row) :
    (a.measure incoming outgoing row).theta3d.isFinite = true ∧
      (a.measure incoming outgoing row).thetaX.isFinite = true ∧
      (a.measure incoming outgoing row).thetaY.isFinite = true := by
  have hnumber : ∀ {x : Float}, x.abs ≤ 2.0 → x.isNaN = false := by
    intro x hx
    exact isNaN_of_isFinite (abs_value_le_of_abs_le exactly_two hx).1
  have hangle : ∀ {y z : Float}, y.abs ≤ 2.0 → z.abs ≤ 2.0 → (a.atan2 y z).abs ≤ 4.0 := by
    intro y z hy hz
    exact ha.atan2 y z (hnumber hy) (hnumber hz)
  refine ⟨?space, isFinite_sub_of_abs_le (hangle hout.1 hout.2.2) (hangle hin.1 hin.2.2),
    isFinite_sub_of_abs_le (hangle hout.2.1 hout.2.2) (hangle hin.2.1 hin.2.2)⟩
  have hdot := isNaN_of_isFinite (Vector3.isFinite_dot_of_isWithin hin hout)
  have hdomain : (-1.0 : Float) ≤ 1.0 := by decide +kernel
  obtain ⟨hlower, hupper⟩ := clamp_mem hdot hdomain
  exact isFinite_of_abs_le (ha.acos _ hlower hupper) exactly_four.isFinite

end Angles

/-! ## Finite events

From here on the events of a trace are finite, which is what a reader of traces can check. -/

/-- The position, the momentum and the energy are finite. -/
def TraceStep.IsFinite (s : TraceStep) : Prop :=
  s.position.IsFinite ∧ s.momentum.IsFinite ∧ s.edep.isFinite = true

instance (v : Vector3) : Decidable v.IsFinite := inferInstanceAs (Decidable (_ ∧ _))

instance (s : TraceStep) : Decidable s.IsFinite := inferInstanceAs (Decidable (_ ∧ _))

namespace TraceEvent

variable {layout : Detector.Layout} {e : TraceEvent} {steps : List Step}

/-- All steps are finite. -/
def IsFinite (e : TraceEvent) : Prop := ∀ s ∈ e.steps, s.IsFinite

instance (e : TraceEvent) : Decidable e.IsFinite := inferInstanceAs (Decidable (∀ s ∈ _, _))

/-- A step with its volume is a step of the event. -/
theorem exists_of_mem_place (h : e.place layout = .ok steps) {t : Step} (ht : t ∈ steps) :
    ∃ s ∈ e.steps, t.position = s.position ∧ t.momentum = s.momentum ∧ t.edep = s.edep := by
  obtain ⟨s, hs, hplace⟩ := exists_of_mem_mapM h ht
  refine ⟨s, hs, ?_⟩
  unfold TraceStep.place at hplace
  cases hvolume : s.volumeIn layout with
  | error cause =>
    rw [hvolume] at hplace
    exact nomatch hplace
  | ok id =>
    rw [hvolume] at hplace
    obtain rfl := Except.ok.inj hplace
    exact ⟨rfl, rfl, rfl⟩

/-- The energies of a finite event add up to a number, which may be infinite. -/
theorem IsFinite.isNaN_deposits (he : e.IsFinite) (h : e.place layout = .ok steps)
    (sensitive : Detector.Sensitive) :
    ((sensitive.deposits steps).foldl (· + ·) 0.0).isNaN = false := by
  apply isNaN_foldl_add exactly_zero.isNaN
  intro x hx
  obtain ⟨t, ht, rfl⟩ := List.mem_map.1 hx
  obtain ⟨s, hs, -, -, hedep⟩ := exists_of_mem_place h (List.mem_of_mem_filter ht)
  rw [hedep]
  exact (he s hs).2.2

end TraceEvent

namespace Row

/-- What the row of a finite event holds. Only the two momenta and their difference are left open: a
momentum can be infinite, and the loss is what comes of that. -/
structure Numbers (row : Row) (e : TraceEvent) : Prop where
  /-- its angles are finite -/
  angles : row.theta3d.isFinite = true ∧ row.thetaX.isFinite = true ∧ row.thetaY.isFinite = true
  /-- its momenta are the lengths of two momenta of the event -/
  momenta : ∃ s ∈ e.steps, ∃ t ∈ e.steps, row.pIn = s.momentum.norm ∧ row.pOut = t.momentum.norm
  /-- so they are numbers from zero on -/
  nonneg : IsNonneg row.pIn ∧ IsNonneg row.pOut
  /-- its loss is their difference -/
  loss : row.deltaP = row.pIn - row.pOut
  /-- the point in the target is one of numbers -/
  target : row.xTarget.isNaN = false ∧ row.yTarget.isNaN = false
  /-- and so is the energy -/
  energy : row.caloEdep.isNaN = false

end Row

/-- **The row of an accepted event**, if the event is finite. Its lengths are numbers from zero on,
its angles are finite, and its loss is the difference of the lengths. -/
theorem Angles.numbers_of_endsIn {a : Angles} (ha : a.IsSound) {layout : Detector.Layout}
    {e : TraceEvent} (he : e.IsFinite) {row : Row} (h : a.EndsIn layout e (.accepted row)) :
    row.Numbers e := by
  obtain ⟨steps, hplace, hends⟩ := h
  cases hends with
  | dropped ends rowless => exact nomatch rowless
  | @accepted row ends first hits incoming outgoing before behind =>
    have hangles := ha.isFinite_measure (Vector3.isWithin_two_of_direction? before)
      (Vector3.isWithin_two_of_direction? behind) row
    obtain rfl := eq_of_ends_accepted ends hits before behind
    have hstep : ∀ k, ∃ s ∈ e.steps, (first k).position = s.position ∧ (first k).momentum = s.momentum := by
      intro k
      obtain ⟨-, earlier, later, hsteps, -⟩ := hits k
      have hmem : first k ∈ steps := by
        rw [hsteps]
        exact List.mem_append_right earlier List.mem_cons_self
      obtain ⟨s, hs, hposition, hmomentum, -⟩ := TraceEvent.exists_of_mem_place hplace hmem
      exact ⟨s, hs, hposition, hmomentum⟩
    obtain ⟨s, hs, hposition, hmomentum⟩ := hstep 1
    obtain ⟨t, ht, hposition', hmomentum'⟩ := hstep 2
    have hmiddle : ∀ {x y : Float}, x.isFinite = true → y.isFinite = true →
        ((x + y) / 2.0).isNaN = false := by
      intro x y hx hy
      rw [isNaN_div _ exactly_two.isFinite (exactly_two.value_eq ▸ two_ne_zero)]
      exact (isRounded_add hx hy).isNaN
    simp only [measure, hposition, hmomentum, hposition', hmomentum']
    exact {
      angles := hangles
      momenta := ⟨s, hs, t, ht, rfl, rfl⟩
      nonneg := ⟨Vector3.isNonneg_norm (he s hs).2.1, Vector3.isNonneg_norm (he t ht).2.1⟩
      loss := rfl
      target := ⟨hmiddle (he s hs).1.1 (he t ht).1.1, hmiddle (he s hs).1.2.1 (he t ht).1.2.1⟩
      energy := he.isNaN_deposits hplace layout.sensitive }

/-- Finite momenta have a finite difference. -/
theorem Row.Numbers.isFinite_deltaP {row : Row} {e : TraceEvent} (h : row.Numbers e)
    (hin : row.pIn.isFinite = true) (hout : row.pOut.isFinite = true) :
    row.deltaP.isFinite = true := by
  have hpIn := h.nonneg.1.nonneg
  have hpOut := h.nonneg.2.nonneg
  rw [h.loss]
  obtain hle | hle := le_total (Double.value row.pIn) (Double.value row.pOut)
  · apply (isRounded_sub hin hout).isFinite (y := row.pOut) ⟨hout, rfl⟩
    rw [abs_le]
    constructor <;> linarith
  · apply (isRounded_sub hin hout).isFinite (y := row.pIn) ⟨hin, rfl⟩
    rw [abs_le]
    constructor <;> linarith

/-! ## Records

A record is a row in the units of the table, which are finite and not zero; so it has NaN where the
row has it. -/

namespace Table.Record

/-- Some value is NaN. -/
def HasNaN (r : Record) : Prop := ∃ x ∈ r.values, x.isNaN = true

instance (r : Record) : Decidable r.HasNaN := inferInstanceAs (Decidable (∃ x ∈ _, _))

/-- The units of the table turn no number into NaN and no NaN into a number. So rows and records can
be asked alike. -/
theorem hasNaN_ofRow_iff (row : Row) : (ofRow row).HasNaN ↔
    ∃ x ∈ [row.theta3d, row.thetaX, row.thetaY, row.pIn, row.pOut, row.deltaP, row.xTarget,
      row.yTarget, row.caloEdep], x.isNaN = true := by
  have hunit : ∀ {u : Float}, u.isFinite = true → 0.0 < u → ∀ x : Float, (x / u).isNaN = x.isNaN := by
    intro u hu hpos x
    apply isNaN_div x hu
    rw [lt_iff_value exactly_zero.isNaN (isNaN_of_isFinite hu), exactly_zero.value_eq] at hpos
    exact hpos.ne'
  have hmrad := @hunit Unit.mrad (by decide +kernel) (by decide +kernel)
  have hgev := @hunit Unit.gev (by decide +kernel) (by decide +kernel)
  have hmev := @hunit Unit.mev (by decide +kernel) (by decide +kernel)
  have hmm := @hunit Unit.mm (by decide +kernel) (by decide +kernel)
  simp only [HasNaN, values, ofRow, List.mem_cons, List.not_mem_nil, or_false, exists_eq_or_imp,
    exists_eq_left, hmrad, hgev, hmev, hmm]

end Table.Record

/-- **The record of a finite event has NaN exactly if both momenta are infinite.** -/
theorem Row.Numbers.hasNaN_iff {row : Row} {e : TraceEvent} (h : row.Numbers e) :
    (Table.Record.ofRow row).HasNaN ↔ row.pIn.isFinite = false ∧ row.pOut.isFinite = false := by
  have hloss := h.nonneg.1.isNaN_sub_iff h.nonneg.2
  rw [← h.loss] at hloss
  rw [Table.Record.hasNaN_ofRow_iff, ← hloss]
  simp only [List.mem_cons, List.not_mem_nil, or_false, exists_eq_or_imp, exists_eq_left,
    isNaN_of_isFinite h.angles.1, isNaN_of_isFinite h.angles.2.1, isNaN_of_isFinite h.angles.2.2,
    h.nonneg.1.isNaN, h.nonneg.2.isNaN, h.target.1, h.target.2, h.energy, Bool.false_eq_true,
    false_or, or_false]

/-! ## Moments

The moments are sums over the accepted rows. A sum of finite numbers may overflow, but it never
cancels infinities, since a finite summand changes no infinite sum. -/

namespace Moments

/-- The sums are numbers. They may be infinite. -/
structure IsNumber (m : Moments) : Prop where
  /-- the sum of the values -/
  sum : m.sum.isNaN = false
  /-- the sum of their squares -/
  squares : IsNonneg m.squares

/-- No value leaves both sums at zero. -/
theorem isNumber_empty : empty.IsNumber where
  sum := exactly_zero.isNaN
  squares := ⟨exactly_zero.isNaN, exactly_zero.value_eq.ge⟩

/-- A finite value keeps them numbers. -/
theorem IsNumber.push {m : Moments} (hm : m.IsNumber) {x : Float} (hx : x.isFinite = true) :
    (m.push x).IsNumber where
  sum := isNaN_add_of_isFinite hm.sum hx
  squares := hm.squares.add (isNonneg_mul_self hx)

/-- And so do many. -/
theorem isNumber_ofValues {xs : List Float} (hxs : ∀ x ∈ xs, x.isFinite = true) :
    (ofValues xs).IsNumber := by
  have hrun : ∀ m : Moments, m.IsNumber → (xs.foldl Moments.push m).IsNumber := by
    induction xs with
    | nil => exact fun m hm => hm
    | cons x xs ih =>
      obtain ⟨hx, hrest⟩ := List.forall_mem_cons.1 hxs
      exact fun m hm => ih hrest _ (hm.push hx)
  exact hrun empty isNumber_empty

/-- One NaN among the values is enough for the sum. -/
theorem isNaN_sum_ofValues {xs : List Float} {x : Float} (hx : x ∈ xs) (hnan : x.isNaN = true) :
    (ofValues xs).sum.isNaN = true := by
  obtain ⟨before, after, rfl⟩ := List.append_of_mem hx
  have hkeep : ∀ (ys : List Float) (m : Moments), m.sum.isNaN = true →
      (ys.foldl Moments.push m).sum.isNaN = true := by
    intro ys
    induction ys with
    | nil => exact fun m hm => hm
    | cons y ys ih => exact fun m hm => ih _ (isNaN_add_of_isNaN (.inl hm))
  rw [ofValues, List.foldl_append, List.foldl_cons]
  exact hkeep after _ (isNaN_add_of_isNaN (.inr hnan))

end Moments

/-- Only accepted events have a row. -/
theorem Outcome.row?_eq_some {o : Outcome} {row : Row} (h : o.row? = some row) : o = .accepted row := by
  cases o with
  | accepted accepted => exact congrArg Outcome.accepted (Option.some.inj h)
  | _ => exact nomatch h

/-- The values of a quantity are those of the accepted rows. -/
theorem mem_acceptedValues_iff {outcomes : List Outcome} {q : Quantity} {x : Float} :
    x ∈ acceptedValues outcomes q ↔ ∃ row ∈ acceptedRows outcomes, row.value q = x :=
  List.mem_map

/-- Finite rows have numbers as their moments. -/
theorem Summary.isNumber_ofOutcomes {outcomes : List Outcome}
    (h : ∀ row ∈ acceptedRows outcomes, ∀ q, (row.value q).isFinite = true) (q : Quantity) :
    ((ofOutcomes outcomes).moments q).IsNumber := by
  rw [moments_ofOutcomes]
  apply Moments.isNumber_ofValues
  intro x hx
  obtain ⟨row, hrow, rfl⟩ := mem_acceptedValues_iff.1 hx
  exact h row hrow q

/-! ## Runs

What has been said of one event is put together for a trace, in the order in which its outcomes
come. -/

namespace Angles

variable {a : Angles} {layout : Detector.Layout} {trace : Trace} {outcomes : List Outcome}

/-- An accepted row is that of an event. -/
theorem exists_event_of_mem_acceptedRows (h : List.Forall₂ (a.EndsIn layout) trace outcomes)
    {row : Row} (hrow : row ∈ acceptedRows outcomes) :
    ∃ e ∈ trace, a.EndsIn layout e (.accepted row) := by
  obtain ⟨o, ho, hsome⟩ := List.mem_filterMap.1 hrow
  obtain rfl := Outcome.row?_eq_some hsome
  clear hrow hsome
  induction h with
  | nil => exact absurd ho List.not_mem_nil
  | @cons e _ rest _ he _ ih =>
    obtain rfl | ho := List.mem_cons.1 ho
    · exact ⟨e, List.mem_cons_self, he⟩
    · obtain ⟨e', he', hends⟩ := ih ho
      exact ⟨e', List.mem_cons_of_mem e he', hends⟩

/-- **The rows of finite events are numbers, but for the loss between infinite momenta.** For a trace of
finite events and any sound angles:

* an accepted row has finite angles, a point and an energy of numbers, and the lengths of two momenta
  of its event; its record has NaN exactly if both lengths are infinite;
* components of at most `7.7e153` keep the lengths finite, so that no record has NaN;
* the moments are numbers if the losses and energies are finite, and one NaN in a record is enough for
  the sum of the losses.

With the angles of the processor these are the rows and the summary that a worker delivers. -/
theorem rows_of_finite_events (ha : a.IsSound) (hfinite : ∀ e ∈ trace, e.IsFinite)
    (hends : List.Forall₂ (a.EndsIn layout) trace outcomes) :
    (∀ row ∈ acceptedRows outcomes, ∃ e ∈ trace, a.EndsIn layout e (.accepted row) ∧ row.Numbers e ∧
      ((Table.Record.ofRow row).HasNaN ↔ row.pIn.isFinite = false ∧ row.pOut.isFinite = false)) ∧
    ((∀ e ∈ trace, ∀ s ∈ e.steps, s.momentum.IsWithin 7.7e153) → ∀ row ∈ acceptedRows outcomes,
      ¬ (Table.Record.ofRow row).HasNaN ∧ row.deltaP.isFinite = true) ∧
    ((∀ row ∈ acceptedRows outcomes, row.deltaP.isFinite = true ∧ row.caloEdep.isFinite = true) →
      ∀ q, ((Summary.ofOutcomes outcomes).moments q).IsNumber) ∧
    ((∃ row ∈ acceptedRows outcomes, (Table.Record.ofRow row).HasNaN) →
      (Summary.ofOutcomes outcomes).deltaP.sum.isNaN = true) ∧
    (a = standard → ∀ crew : Crew, crew.sensitive = layout.sensitive → ∀ (number : Nat) (host : Host),
      Replay.Delivers outcomes
        (Replay.runOrRelease layout (crew.worker number MemorySink.fresh) host trace).2) := by
  have hrows : ∀ row ∈ acceptedRows outcomes, ∃ e ∈ trace, a.EndsIn layout e (.accepted row) ∧
      row.Numbers e := by
    intro row hrow
    obtain ⟨e, he, hrow⟩ := exists_event_of_mem_acceptedRows hends hrow
    exact ⟨e, he, hrow, numbers_of_endsIn ha (hfinite e he) hrow⟩
  refine ⟨?rows, ?moderate, ?moments, ?spoilt, ?delivered⟩
  case rows =>
    intro row hrow
    obtain ⟨e, he, hend, hnumbers⟩ := hrows row hrow
    exact ⟨e, he, hend, hnumbers, hnumbers.hasNaN_iff⟩
  case moderate =>
    intro hwithin row hrow
    obtain ⟨e, he, -, hnumbers⟩ := hrows row hrow
    have hlength : ∀ s ∈ e.steps, s.momentum.norm.isFinite = true := by
      intro s hs
      have hmomentum := (hfinite e he s hs).2.1
      rw [Vector3.isFinite_norm_iff hmomentum]
      exact Vector3.isFinite_dot_self hmomentum (hwithin e he s hs)
    obtain ⟨s, hs, t, ht, hpIn, hpOut⟩ := hnumbers.momenta
    have hin : row.pIn.isFinite = true := hpIn ▸ hlength s hs
    have hout : row.pOut.isFinite = true := hpOut ▸ hlength t ht
    refine ⟨?_, hnumbers.isFinite_deltaP hin hout⟩
    rw [hnumbers.hasNaN_iff, hin]
    exact fun h => absurd h.1 Bool.true_eq_false.mp
  case moments =>
    intro hvalues
    apply Summary.isNumber_ofOutcomes
    intro row hrow q
    obtain ⟨e, -, -, hnumbers⟩ := hrows row hrow
    obtain ⟨hspace, hx, hy⟩ := hnumbers.angles
    cases q with
    | theta3d => exact hspace
    | thetaX => exact hx
    | thetaY => exact hy
    | deltaP => exact (hvalues row hrow).1
    | caloEdep => exact (hvalues row hrow).2
  case spoilt =>
    rintro ⟨row, hrow, hnan⟩
    obtain ⟨e, -, -, hnumbers⟩ := hrows row hrow
    -- the loss is infinity minus infinity
    have hloss : (row.value .deltaP).isNaN = true := by
      rw [show row.value .deltaP = row.pIn - row.pOut from hnumbers.loss,
        hnumbers.nonneg.1.isNaN_sub_iff hnumbers.nonneg.2, ← hnumbers.hasNaN_iff]
      exact hnan
    have hsum := Moments.isNaN_sum_ofValues (mem_acceptedValues_iff.2 ⟨row, hrow, rfl⟩) hloss
    rw [← Summary.moments_ofOutcomes] at hsum
    exact hsum
  case delivered =>
    rintro rfl crew hcrew number host
    exact Replay.runOrRelease_delivers hcrew number MemorySink.closed_fresh
      (hends.imp fun e o => endsIn_standard_iff.1) host

/-- The places of the planes along the beam, and their volumes. -/
def planes : List (String × VolumeId × Float) :=
  [("Tracker1", ⟨1⟩, -500.0), ("Tracker2", ⟨2⟩, -250.0), ("Tracker3", ⟨3⟩, 250.0),
    ("Tracker4", ⟨4⟩, 500.0)]

/-- A particle along the beam axis, with this momentum in every plane. -/
def straight (p : Float) : TraceEvent :=
  ⟨0, planes.map fun (name, _, z) => ⟨some name, ⟨0.0, 0.0, z⟩, ⟨0.0, 0.0, p⟩, 0.0⟩⟩

/-- At a great momentum both lengths are infinite, and the loss is NaN. -/
theorem endsIn_straight :
    ∃ row, (straight 1e200).EndsIn (Detector.Layout.build .default .standard).1 (.accepted row) ∧
      row.deltaP.isNaN = true := by
  let steps : List Step :=
    planes.map fun (_, volume, z) => ⟨volume, ⟨0.0, 0.0, z⟩, ⟨0.0, 0.0, 1e200⟩, 0.0⟩
  have hany : (Accumulator.ofSteps (Detector.Layout.build .default .standard).1.sensitive
      steps).outcome.row?.any (fun row => row.deltaP.isNaN) = true := by
    decide +kernel
  obtain ⟨row, hrow, hnan⟩ := (Option.any_eq_true ..).1 hany
  exact ⟨row, ⟨steps, rfl, outcome_ofSteps_eq_iff.1 (Outcome.row?_eq_some hrow)⟩, hnan⟩

/-- A straight track at a great momentum has NaN in its record, and so has the sum of the run. -/
theorem rows_of_finite_events_great :
    let a : Angles := ⟨fun _ => 0.0, fun _ _ => 0.0⟩
    ∃ row, a.EndsIn (Detector.Layout.build .default .standard).1 (straight 1e200) (.accepted row) ∧
      row.Numbers (straight 1e200) ∧ (Table.Record.ofRow row).HasNaN ∧
      (Summary.ofOutcomes [.accepted row]).deltaP.sum.isNaN = true := by
  intro a
  have hzero : (0.0 : Float).abs ≤ 4.0 := by decide +kernel
  have hsound : a.IsSound := ⟨fun _ _ _ => hzero, fun _ _ _ _ => hzero⟩
  have hfinite : ∀ e ∈ [straight 1e200], e.IsFinite := by decide +kernel
  obtain ⟨row, ⟨steps, hplace, hends⟩, hnan⟩ := endsIn_straight
  obtain ⟨incoming, outgoing, hends⟩ := a.exists_ends_of_accepted hends
  obtain ⟨hrows, -, -, hspoilt, -⟩ :=
    rows_of_finite_events hsound hfinite (.cons ⟨steps, hplace, hends⟩ .nil)
  obtain ⟨e, he, -, hnumbers, -⟩ := hrows _ List.mem_cons_self
  obtain rfl := List.mem_singleton.1 he
  have hrecord : (Table.Record.ofRow (a.measure incoming outgoing row)).HasNaN :=
    (Table.Record.hasNaN_ofRow_iff _).2 ⟨row.deltaP, by simp [measure], hnan⟩
  exact ⟨_, ⟨steps, hplace, hends⟩, hnumbers, hrecord, hspoilt ⟨_, List.mem_cons_self, hrecord⟩⟩

/-- It is a finite event that the reconstruction accepts. -/
theorem hasNaN_of_straight_great : (straight 1e200).IsFinite ∧
    ∃ row, (straight 1e200).EndsIn (Detector.Layout.build .default .standard).1 (.accepted row) ∧
      (Table.Record.ofRow row).HasNaN := by
  refine ⟨by decide +kernel, ?_⟩
  obtain ⟨row, hends, hnan⟩ := endsIn_straight
  exact ⟨row, hends, (Table.Record.hasNaN_ofRow_iff row).2 ⟨row.deltaP, by simp, hnan⟩⟩

end Angles

end Telescope
