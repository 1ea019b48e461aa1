import Telescope.Proofs.CommandRanges
import Telescope.Proofs.SquareRoots

/-!
# The lengths of vectors

The length of a vector is the root of a sum of squares. Squares of great components overflow and squares
of small ones vanish, so a vector that is finite and not zero can have an infinite length or none.

* `Vector3.isFinite_norm_iff`: the length is finite exactly if the sum of squares is. The sum grows with
  the components (`dot_self_mono`); `isFinite_dot_self` and `not_isFinite_dot_self` give bounds for them;
* `Vector3.norm_beq_zero_iff`: the length is zero exactly if the vector `Vanishes`;
* `Vector3.direction?_ne_none_iff`: a vector has a direction if neither is the case, and the components
  of a direction are at most two (`isWithin_two_of_direction?`), since no component is more than twice as
  great as the length.

The thresholds are exact. For each of them two neighbouring doubles are named, one on each side, and
evaluated (`vanishing_square`, `overflowing_square`); the order of rounded squares does the rest.
The sufficient bound `7.7e153` for three components is a little smaller than it would have to be,
because the sum of three squares is rounded twice.
-/

namespace Telescope

open Double

namespace Double

open Float.Model (Format UnpackedFloat)

/-! ## Squares

A square is the exact square, rounded, and so it is in the order of the sizes. It comes to zero
below about `1.57e-162` and to infinity above about `1.34e154`, though the number itself is an
ordinary one. -/

variable {x y : Float}

/-- A square is rounded once. -/
theorem isRounded_mul_self (hx : x.isFinite = true) : IsRounded (value x ^ 2) (x * x) := by
  have hmul := isRounded_mul hx hx
  rwa [← sq] at hmul

/-- It is a number from zero on. -/
theorem isNonneg_mul_self (hx : x.isFinite = true) : IsNonneg (x * x) :=
  (isRounded_mul_self hx).isNonneg (sq_nonneg _)

/-- Greater numbers have greater squares. -/
theorem value_mul_self_mono (hx : x.isFinite = true) (hy : y.isFinite = true)
    (h : |value x| ≤ |value y|) : value (x * x) ≤ value (y * y) := by
  rw [(isRounded_mul_self hx).value_eq, (isRounded_mul_self hy).value_eq]
  exact rounded_mono (sq_le_sq.2 h)

/-- The last number whose square vanishes, and the first whose square does not. -/
theorem vanishing_square : Adjacent 1.5717277847026285e-162 1.5717277847026288e-162 ∧
    ((1.5717277847026285e-162 : Float).isFinite = true ∧
      1.5717277847026285e-162 * 1.5717277847026285e-162 = (0.0 : Float)) ∧
    ((1.5717277847026288e-162 : Float).isFinite = true ∧ (0.0 : Float) ≤ 1.5717277847026288e-162 ∧
      (0.0 : Float) < 1.5717277847026288e-162 * 1.5717277847026288e-162) :=
  ⟨.of_parts 6369051672525773 (-590) (by decide +kernel), by decide +kernel, by decide +kernel⟩

/-- The last number whose square is finite, and the first whose square is not. -/
theorem overflowing_square : Adjacent 1.3407807929942596e154 1.3407807929942597e154 ∧
    ((1.3407807929942597e154 : Float).isFinite = true ∧ (0.0 : Float) ≤ 1.3407807929942597e154 ∧
      ((1.3407807929942597e154 : Float) * 1.3407807929942597e154).isFinite = false) :=
  ⟨.of_parts 9007199254740992 459 (by decide +kernel), by decide +kernel⟩

/-- The squares of great numbers overflow, and are then at the limit. -/
theorem value_mul_self_of_lt (hx : x.isFinite = true) (h : 1.3407807929942596e154 < x.abs) :
    value (x * x) = limit := by
  obtain ⟨hadjacent, hfinite, hpos, hinfinite⟩ := overflowing_square
  have hle := value_le_of_le (hadjacent.le_of_lt' h)
  have hpos' := value_le_of_le hpos
  rw [value_abs] at hle
  rw [exactly_zero.value_eq] at hpos'
  have hmono := value_mul_self_mono hfinite hx ((abs_of_nonneg hpos').trans_le hle)
  rw [(isNonneg_mul_self hfinite).value_eq_limit hinfinite] at hmono
  exact le_antisymm (isNonneg_mul_self hx).value_le_limit hmono

/-- **The squares of small numbers vanish.** The bound is the last number for which they do: half
the least double lies just above its square. -/
theorem value_mul_self_eq_zero_iff (hx : x.isFinite = true) :
    value (x * x) = 0 ↔ x.abs ≤ 1.5717277847026285e-162 := by
  obtain ⟨hadjacent, ⟨hlow, hnone⟩, hhigh, hpos, hsome⟩ := vanishing_square
  have habs : x.abs.isNaN = false := (isNaN_abs x).trans (isNaN_of_isFinite hx)
  constructor
  · intro hzero
    apply le_of_not_lt (isNaN_of_isFinite hlow) habs
    intro hlt
    have hle := value_le_of_le (hadjacent.le_of_lt' hlt)
    have hpos' := value_le_of_le hpos
    rw [value_abs] at hle
    rw [exactly_zero.value_eq] at hpos'
    have hmono := value_mul_self_mono hhigh hx ((abs_of_nonneg hpos').trans_le hle)
    rw [lt_iff_value exactly_zero.isNaN (isNonneg_mul_self hhigh).isNaN, exactly_zero.value_eq] at hsome
    linarith
  · intro hle
    have hle' := value_le_of_le hle
    rw [value_abs] at hle'
    have hmono := value_mul_self_mono hx hlow (hle'.trans (le_abs_self _))
    rw [hnone, exactly_zero.value_eq] at hmono
    exact le_antisymm hmono (isNonneg_mul_self hx).nonneg

/-- With zero in front the sum is the same. -/
theorem IsNonneg.isNonneg_zero_add (hx : IsNonneg x) : IsNonneg (0.0 + x) ∧ value (0.0 + x) = value x := by
  have hzero : IsNonneg 0.0 := ⟨exactly_zero.isNaN, exactly_zero.value_eq.ge⟩
  have hsum := hzero.isRounded_add hx
  rw [exactly_zero.value_eq, zero_add (value x)] at hsum
  exact ⟨hsum.isNonneg hx.nonneg, hsum.value_eq.trans (rounded_value hx.isNaN)⟩

/-- A sum of such numbers is at least each of them. -/
theorem IsNonneg.le_value_add (hx : IsNonneg x) (hy : IsNonneg y) :
    value x ≤ value (x + y) ∧ value y ≤ value (x + y) := by
  have hx' := hx.nonneg
  have hy' := hy.nonneg
  have hsum := hx.isRounded_add hy
  exact ⟨hsum.le_value hx.isNaN (by linarith), hsum.le_value hy.isNaN (by linarith)⟩

/-- And it grows with them. -/
theorem IsNonneg.value_add_mono {z w : Float} (hx : IsNonneg x) (hy : IsNonneg y) (hz : IsNonneg z)
    (hw : IsNonneg w) (h : value x ≤ value z) (h' : value y ≤ value w) :
    value (x + y) ≤ value (z + w) := by
  rw [(hx.isRounded_add hy).value_eq, (hz.isRounded_add hw).value_eq]
  exact rounded_mono (add_le_add h h')

/-- It is zero only if both are: a small summand may be lost beside a great one, but never beside
zero. -/
theorem IsNonneg.value_add_eq_zero_iff (hx : IsNonneg x) (hy : IsNonneg y) :
    value (x + y) = 0 ↔ value x = 0 ∧ value y = 0 := by
  obtain ⟨hle, hle'⟩ := hx.le_value_add hy
  constructor
  · intro h
    rw [h] at hle hle'
    exact ⟨le_antisymm hle hx.nonneg, le_antisymm hle' hy.nonneg⟩
  · rintro ⟨h, h'⟩
    rw [(hx.isRounded_add hy).value_eq, h, h', add_zero, exactly_zero.rounded_eq]

/-- No component of a sum is more than twice as great as the root of the sum. Below the normal numbers
squares lose their places, but the least sum that is left has a great root. -/
theorem IsNonneg.abs_le_two_mul_sqrt (hy : IsNonneg y) (hfinite : y.isFinite = true)
    (hne : value y ≠ 0) (hx : x.isFinite = true) (hle : value (x * x) ≤ value y) :
    |value x| ≤ 2 * value y.sqrt := by
  obtain hzero | hpos := (abs_nonneg (value x)).eq_or_lt
  · rw [← hzero]
    exact mul_nonneg two_pos.le hy.sqrt.nonneg
  obtain ⟨k, hk⟩ : ∃ k, Int.log 2 |value x| = k := ⟨_, rfl⟩
  have hlow : (2 : ℚ) ^ k ≤ |value x| := by
    rw [← hk]
    exact_mod_cast Int.zpow_log_le_self (b := 2) (by norm_num) hpos
  have hhigh : |value x| < 2 ^ (k + 1) := by
    rw [← hk]
    exact_mod_cast Int.lt_zpow_succ_log_self (b := 2) (by norm_num) |value x|
  obtain hsmall | hgreat := lt_or_ge k (-537)
  · -- the root of the least double is greater
    have hleast : ((2 : ℚ) ^ (-537 : ℤ)) ^ 2 ≤ value y := by
      rw [sq, ← zpow_add₀ two_ne_zero]
      exact two_zpow_le_value (lt_of_le_of_ne hy.nonneg (Ne.symm hne))
    have hroot := hy.le_value_sqrt hleast
    rw [rounded_two_zpow (by decide) (by decide)] at hroot
    have hbelow : (2 : ℚ) ^ (k + 1) ≤ 2 ^ (-537 : ℤ) := zpow_le_zpow_right₀ one_le_two (by omega)
    have hnonneg := hy.sqrt.nonneg
    linarith
  · -- the square is at least the square of the power of two
    have hsquare : rounded (2 ^ (k + k)) ≤ value y := by
      refine le_trans ?_ hle
      rw [(isRounded_mul_self hx).value_eq, ← sq_abs]
      apply rounded_mono
      rw [zpow_add₀ two_ne_zero, ← sq]
      exact pow_le_pow_left₀ (by positivity) hlow 2
    obtain hover | hin := le_or_gt 1024 (k + k)
    · rw [rounded_of_limit_le (zpow_le_zpow_right₀ one_le_two hover)] at hsquare
      exact absurd (hy.isFinite_iff.1 hfinite) hsquare.not_gt
    · rw [rounded_two_zpow (by omega) hin, zpow_add₀ two_ne_zero, ← sq] at hsquare
      have hroot := hy.le_value_sqrt hsquare
      rw [rounded_two_zpow (by omega) (by omega)] at hroot
      rw [zpow_add_one₀ two_ne_zero] at hhigh
      linarith

/-- A number is equal to zero, of either sign, if its value is zero. This is how lengths are compared
with zero. -/
theorem beq_zero_iff (hx : x.isNaN = false) : (x == 0.0) = true ↔ value x = 0 := by
  change UnpackedFloat.beq x.toModel.unpack (0.0 : Float).toModel.unpack = true ↔ _
  rw [UnpackedFloat.beq, compare_eq (b := (0.0 : Float).toModel.unpack) hx exactly_zero.isNaN
    (canonical_unpack _) (canonical_unpack _) (inRange_unpack _) (inRange_unpack _), beq_iff_eq,
    Option.some_inj]
  exact compare_eq_iff_eq

/-! ## Finite results

The other direction: from a result that is finite it follows that what went into it was finite. A
vector with a finite length needs no check of its components. -/

/-- A finite sum has finite summands. Sums of squares are looked at from the outside in by this. -/
theorem isFinite_of_add (h : (x + y).isFinite = true) : x.isFinite = true ∧ y.isFinite = true := by
  have hparts : (UnpackedFloat.add Format.binary64 x.toModel.unpack y.toModel.unpack).isFinite = true :=
    isFinite_of_pack h
  change x.toModel.unpack.isFinite = true ∧ y.toModel.unpack.isFinite = true
  obtain ⟨a, ha⟩ : ∃ a, x.toModel.unpack = a := ⟨_, rfl⟩
  obtain ⟨b, hb⟩ : ∃ b, y.toModel.unpack = b := ⟨_, rfl⟩
  rw [ha, hb] at hparts ⊢
  cases a with
  | notANumber => exact nomatch hparts
  | infinity s => cases b with
    | infinity t => cases s <;> cases t <;> exact nomatch hparts
    | notANumber => exact nomatch hparts
    | _ =>
      rw [infinity_add s rfl] at hparts
      exact nomatch hparts
  | _ => cases b with
    | notANumber => exact nomatch hparts
    | infinity t =>
      rw [add_infinity t rfl] at hparts
      exact nomatch hparts
    | _ => exact ⟨rfl, rfl⟩

/-- A finite square is that of a finite number. -/
theorem isFinite_of_mul_self (h : (x * x).isFinite = true) : x.isFinite = true := by
  have hparts : (UnpackedFloat.mul Format.binary64 x.toModel.unpack x.toModel.unpack).isFinite = true :=
    isFinite_of_pack h
  change x.toModel.unpack.isFinite = true
  cases ha : x.toModel.unpack with
  | notANumber | infinity s =>
    rw [ha] at hparts
    exact nomatch hparts
  | _ => rfl

/-- A finite root has a finite radicand. -/
theorem isFinite_of_sqrt (h : x.sqrt.isFinite = true) : x.isFinite = true := by
  have hparts : (UnpackedFloat.sqrt Format.binary64 x.toModel.unpack).isFinite = true :=
    isFinite_of_pack h
  change x.toModel.unpack.isFinite = true
  cases ha : x.toModel.unpack with
  | notANumber =>
    rw [ha] at hparts
    exact nomatch hparts
  | infinity s =>
    rw [ha] at hparts
    cases s <;> exact nomatch hparts
  | _ => rfl

end Double

namespace Vector3

variable {v w : Vector3}

/-! ## Sums of squares

The length is computed from this sum, so it inherits what happens to the sum. -/

/-- The sum of squares is a number from zero on, perhaps infinite, and not NaN. -/
theorem isNonneg_dot_self (hv : v.IsFinite) : IsNonneg (v.dot v) :=
  ((isNonneg_mul_self hv.1).add (isNonneg_mul_self hv.2.1)).add (isNonneg_mul_self hv.2.2)

/-- The square of a component is at most the sum. -/
theorem value_mul_self_le_dot_self (hv : v.IsFinite) : value (v.x * v.x) ≤ value (v.dot v) ∧
    value (v.y * v.y) ≤ value (v.dot v) ∧ value (v.z * v.z) ≤ value (v.dot v) := by
  have hx := isNonneg_mul_self hv.1
  have hy := isNonneg_mul_self hv.2.1
  have hz := isNonneg_mul_self hv.2.2
  obtain ⟨hplane, hlast⟩ := (hx.add hy).le_value_add hz
  obtain ⟨hfirst, hsecond⟩ := hx.le_value_add hy
  exact ⟨hfirst.trans hplane, hsecond.trans hplane, hlast⟩

/-- Greater components have a greater sum. -/
theorem dot_self_mono (hv : v.IsFinite) (hw : w.IsFinite) (hx : |value v.x| ≤ |value w.x|)
    (hy : |value v.y| ≤ |value w.y|) (hz : |value v.z| ≤ |value w.z|) :
    value (v.dot v) ≤ value (w.dot w) := by
  have hplane := (isNonneg_mul_self hv.1).value_add_mono (isNonneg_mul_self hv.2.1)
    (isNonneg_mul_self hw.1) (isNonneg_mul_self hw.2.1) (value_mul_self_mono hv.1 hw.1 hx)
    (value_mul_self_mono hv.2.1 hw.2.1 hy)
  exact ((isNonneg_mul_self hv.1).add (isNonneg_mul_self hv.2.1)).value_add_mono
    (isNonneg_mul_self hv.2.2) ((isNonneg_mul_self hw.1).add (isNonneg_mul_self hw.2.1))
    (isNonneg_mul_self hw.2.2) hplane (value_mul_self_mono hv.2.2 hw.2.2 hz)

/-- All components are at most so great. -/
def IsWithin (v : Vector3) (bound : Float) : Prop :=
  v.x.abs ≤ bound ∧ v.y.abs ≤ bound ∧ v.z.abs ≤ bound

instance (v : Vector3) (bound : Float) : Decidable (v.IsWithin bound) :=
  inferInstanceAs (Decidable (_ ∧ _))

/-- Components of moderate size have a finite sum of squares. -/
theorem isFinite_dot_self (hv : v.IsFinite) (h : v.IsWithin 7.7e153) : (v.dot v).isFinite = true := by
  obtain ⟨hbound, hpos, hsum⟩ : (7.7e153 : Float).isFinite = true ∧ (0.0 : Float) ≤ 7.7e153 ∧
      ((⟨7.7e153, 7.7e153, 7.7e153⟩ : Vector3).dot ⟨7.7e153, 7.7e153, 7.7e153⟩).isFinite = true := by
    decide +kernel
  have hcomponent : ∀ {x : Float}, x.abs ≤ 7.7e153 → |value x| ≤ |value 7.7e153| := by
    intro x hx
    have hle := value_le_of_le hx
    rw [value_abs] at hle
    exact hle.trans (le_abs_self _)
  have hwide : (⟨7.7e153, 7.7e153, 7.7e153⟩ : Vector3).IsFinite := ⟨hbound, hbound, hbound⟩
  have hle := dot_self_mono hv hwide (hcomponent h.1) (hcomponent h.2.1) (hcomponent h.2.2)
  rw [(isNonneg_dot_self hv).isFinite_iff]
  exact hle.trans_lt ((isNonneg_dot_self hwide).isFinite_iff.1 hsum)

/-- A great component makes the sum infinite, whatever the other two are. -/
theorem not_isFinite_dot_self (hv : v.IsFinite) (h : 1.3407807929942596e154 < v.x.abs ∨
    1.3407807929942596e154 < v.y.abs ∨ 1.3407807929942596e154 < v.z.abs) :
    (v.dot v).isFinite = false := by
  obtain ⟨hx, hy, hz⟩ := value_mul_self_le_dot_self hv
  have hle : limit ≤ value (v.dot v) := by
    rcases h with h | h | h
    · exact (value_mul_self_of_lt hv.1 h).ge.trans hx
    · exact (value_mul_self_of_lt hv.2.1 h).ge.trans hy
    · exact (value_mul_self_of_lt hv.2.2 h).ge.trans hz
  rw [← Bool.not_eq_true, (isNonneg_dot_self hv).isFinite_iff, not_lt]
  exact hle

/-! ## Lengths

The root undoes neither an overflow nor a loss: it is infinite just if the sum is, and zero just if
the sum is. -/

/-- A length is a number from zero on. -/
theorem isNonneg_norm (hv : v.IsFinite) : IsNonneg v.norm :=
  (isNonneg_dot_self hv).isNonneg_zero_add.1.sqrt

/-- It is finite just if the sum of squares is. -/
theorem isFinite_norm_iff (hv : v.IsFinite) :
    v.norm.isFinite = true ↔ (v.dot v).isFinite = true := by
  obtain ⟨hsum, hsame⟩ := (isNonneg_dot_self hv).isNonneg_zero_add
  rw [norm, hsum.isFinite_sqrt_iff, hsum.isFinite_iff, hsame, (isNonneg_dot_self hv).isFinite_iff]

/-- All squares of components vanish. -/
def Vanishes (v : Vector3) : Prop := v.IsWithin 1.5717277847026285e-162

instance (v : Vector3) : Decidable v.Vanishes := inferInstanceAs (Decidable (v.IsWithin _))

/-- It is zero just if all squares vanish. -/
theorem value_norm_eq_zero_iff (hv : v.IsFinite) : value v.norm = 0 ↔ v.Vanishes := by
  have hx := isNonneg_mul_self hv.1
  have hy := isNonneg_mul_self hv.2.1
  have hz := isNonneg_mul_self hv.2.2
  obtain ⟨hsum, hsame⟩ := (isNonneg_dot_self hv).isNonneg_zero_add
  rw [norm, hsum.value_sqrt_eq_zero_iff, hsame, dot, (hx.add hy).value_add_eq_zero_iff hz,
    hx.value_add_eq_zero_iff hy, value_mul_self_eq_zero_iff hv.1, value_mul_self_eq_zero_iff hv.2.1,
    value_mul_self_eq_zero_iff hv.2.2, and_assoc]
  rfl

/-- **A length is zero exactly if all squares vanish.** -/
theorem norm_beq_zero_iff (hv : v.IsFinite) : (v.norm == 0.0) = true ↔ v.Vanishes := by
  rw [beq_zero_iff (isNonneg_norm hv).isNaN, value_norm_eq_zero_iff hv]

/-- A vector of finite length is finite. The length of a vector with an infinite component or NaN is
not. -/
theorem isFinite_of_norm (h : v.norm.isFinite = true) : v.IsFinite := by
  obtain ⟨hplane, hz⟩ := isFinite_of_add (isFinite_of_add (isFinite_of_sqrt h)).2
  obtain ⟨hx, hy⟩ := isFinite_of_add hplane
  exact ⟨isFinite_of_mul_self hx, isFinite_of_mul_self hy, isFinite_of_mul_self hz⟩

/-! ## Directions

A direction is a vector divided by its length. It is refused where the length is zero or not finite,
and otherwise the quotients are moderate: the computed length may be too small for a component, but
not by more than a factor of two. -/

/-- The two cases in which a vector has no direction. -/
theorem direction?_eq_none_iff : v.direction? = none ↔
    v.norm.isFinite = false ∨ (v.norm == 0.0) = true := by
  unfold direction?
  split
  · next h => simpa using h
  · next h => simpa using h

/-- **A vector has a direction exactly if its sum of squares neither overflows nor vanishes.** -/
theorem direction?_ne_none_iff (hv : v.IsFinite) :
    v.direction? ≠ none ↔ (v.dot v).isFinite = true ∧ ¬ v.Vanishes := by
  rw [Ne, direction?_eq_none_iff, norm_beq_zero_iff hv, not_or, Bool.not_eq_false,
    isFinite_norm_iff hv]

/-- The components of a direction are finite, and at most two. They would be at most one without
rounding, and the length that they are divided by is off by less than a factor of two. -/
theorem isWithin_two_of_direction? {d : Vector3} (h : v.direction? = some d) :
    d.IsWithin 2.0 := by
  have hsome : v.direction? ≠ none := by
    rw [h]
    exact Option.some_ne_none d
  rw [Ne, direction?_eq_none_iff, not_or, Bool.not_eq_false] at hsome
  obtain ⟨hnorm, hzero⟩ := hsome
  have hv := isFinite_of_norm hnorm
  have hnonneg := isNonneg_norm hv
  obtain ⟨hsum, hsame⟩ := (isNonneg_dot_self hv).isNonneg_zero_add
  rw [beq_zero_iff hnonneg.isNaN] at hzero
  have hne : value (0.0 + v.dot v) ≠ 0 := by rwa [Ne, ← hsum.value_sqrt_eq_zero_iff]
  have hpos : 0 < value v.norm := lt_of_le_of_ne hnonneg.nonneg (Ne.symm hzero)
  have hcomponent : ∀ {x : Float}, x.isFinite = true → value (x * x) ≤ value (v.dot v) →
      (x / v.norm).abs ≤ 2.0 := by
    intro x hx hle
    have hbound : |value x| ≤ 2 * value v.norm :=
      hsum.abs_le_two_mul_sqrt (hsum.isFinite_sqrt_iff.1 hnorm) hne hx (hle.trans_eq hsame.symm)
    have hdiv := isRounded_div hx hnorm hzero
    rw [le_iff_value ((isNaN_abs _).trans hdiv.isNaN) exactly_two.isNaN, value_abs, hdiv.value_eq,
      abs_rounded, exactly_two.value_eq, ← exactly_two.rounded_eq]
    apply rounded_mono
    rwa [abs_div, abs_of_pos hpos, div_le_iff₀ hpos]
  obtain ⟨hx, hy, hz⟩ := value_mul_self_le_dot_self hv
  rw [direction?_eq_some h]
  exact ⟨hcomponent hv.1 hx, hcomponent hv.2.1 hy, hcomponent hv.2.2 hz⟩

end Vector3

end Telescope
