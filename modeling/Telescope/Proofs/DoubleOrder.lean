import Telescope.Proofs.Arithmetic

/-!
# The order of doubles

Doubles are compared by their values, and every operation respects the order because rounding does.

* `le_iff_value` and `lt_iff_value`: all doubles but NaN are in the order of their values, the finite
  ones within the limits (`isFinite_iff`);
* `rounded_mono`: rounding keeps that order, and doubles stay what they are (`rounded_value`), so it
  does not pass one (`IsRounded.le_value`, `IsRounded.value_le`);
* `IsRounded.exact` and `IsRounded.abs_sub_le`: a result that is a double is exact, and others are off
  by half a unit in their last place at most;
* `Adjacent` doubles have none between them (`Adjacent.le_of_lt`).

The parts of doubles are looked at here for the last time. Every later module that reasons about
numbers uses `value`, the two equivalences with the order, and what `IsRounded` says of a result; a
bound on a result is then a bound on a rational number, and `linarith` finds it.
-/

namespace Telescope.Double

open Float.Model (Format UnpackedFloat totalExponent)
open Float.Model.UnpackedFloat

/-! ## Comparisons

Two doubles are compared by sign, exponent and mantissa, in this order. That this is the order of
their values rests on the exponents being canonical: the same number could be written with a smaller
mantissa and a greater exponent, and would then be compared wrongly. -/

section Comparisons

variable {m n : ℕ} {d e : ℤ}

/-- Of two canonical numbers the one with the greater exponent is greater. Its mantissa is full, so
one step of the exponent is worth more than any mantissa of the other. -/
theorem mul_lt_mul_of_exponent_lt {s t : Sign} {hm : 0 < m} {hn : 0 < n}
    (hcanonical : Canonical (.finite s m d hm)) (hcanonical' : Canonical (.finite t n e hn))
    (h : d < e) : (m * 2 ^ d : ℚ) < n * 2 ^ e := by
  have hleast := least_le_of_canonical hcanonical
  have hbits : (m : ℚ) < 2 ^ 53 := by exact_mod_cast (mantissa_of_canonical hcanonical).1
  have hfull : (2 : ℚ) ^ 52 ≤ n := by
    exact_mod_cast (mantissa_of_canonical hcanonical').2 (by omega)
  calc (m * 2 ^ d : ℚ) < 2 ^ 53 * 2 ^ d := mul_lt_mul_of_pos_right hbits (by positivity)
    _ = 2 ^ 52 * 2 ^ (d + 1) := by
      rw [zpow_add_one₀ two_ne_zero]
      ring
    _ ≤ 2 ^ 52 * 2 ^ e :=
      mul_le_mul_of_nonneg_left (zpow_le_zpow_right₀ one_le_two h) (by positivity)
    _ ≤ n * 2 ^ e := mul_le_mul_of_nonneg_right hfull (by positivity)

/-- So they are compared by their exponents first. -/
theorem compare_finite {s t : Sign} {hm : 0 < m} {hn : 0 < n}
    (hcanonical : Canonical (.finite s m d hm)) (hcanonical' : Canonical (.finite t n e hn)) :
    (compare d e).then (compare m n) = compare (m * 2 ^ d : ℚ) (n * 2 ^ e) := by
  obtain hlt | rfl | hgt := lt_trichotomy d e
  · rw [compare_lt_iff_lt.2 hlt,
      compare_lt_iff_lt.2 (mul_lt_mul_of_exponent_lt hcanonical hcanonical' hlt)]
    rfl
  · have hunit : (0 : ℚ) < 2 ^ d := by positivity
    rw [compare_eq_iff_eq.2 rfl, Ordering.then]
    obtain hlt | rfl | hgt := lt_trichotomy m n
    · have hlt' : (m : ℚ) < n := by exact_mod_cast hlt
      rw [compare_lt_iff_lt.2 hlt, compare_lt_iff_lt.2 (mul_lt_mul_of_pos_right hlt' hunit)]
    · rw [compare_eq_iff_eq.2 rfl, compare_eq_iff_eq.2 rfl]
    · have hgt' : (n : ℚ) < m := by exact_mod_cast hgt
      rw [compare_gt_iff_gt.2 hgt, compare_gt_iff_gt.2 (mul_lt_mul_of_pos_right hgt' hunit)]
  · rw [compare_gt_iff_gt.2 hgt,
      compare_gt_iff_gt.2 (mul_lt_mul_of_exponent_lt hcanonical' hcanonical hgt)]
    rfl

/-- Of negative numbers the comparison is the other way round. -/
theorem swap_compare (q r : ℚ) : (compare q r).swap = compare (-q) (-r) := by
  obtain hlt | rfl | hgt := lt_trichotomy q r
  · rw [compare_lt_iff_lt.2 hlt, compare_gt_iff_gt.2 (neg_lt_neg hlt)]
    rfl
  · rw [compare_eq_iff_eq.2 rfl, compare_eq_iff_eq.2 rfl]
    rfl
  · rw [compare_gt_iff_gt.2 hgt, compare_lt_iff_lt.2 (neg_lt_neg hgt)]
    rfl

/-- Finite numbers lie between the limits. -/
theorem finite_lt_limit {s : Sign} {hm : 0 < m} (hcanonical : Canonical (.finite s m e hm))
    (hrange : InRange (.finite s m e hm)) : (0 : ℚ) < m * 2 ^ e ∧ (m * 2 ^ e : ℚ) < limit :=
  ⟨by positivity, mul_lt_limit (mantissa_of_canonical hcanonical).1 hrange⟩

/-- **Doubles are compared by their values.** The cases are those of the two kinds of doubles. Only
two finite numbers of one sign are compared by their parts. -/
theorem compare_eq {a b : UnpackedFloat} (ha : a.isNaN = false) (hb : b.isNaN = false)
    (ha' : Canonical a) (hb' : Canonical b) (hrange : InRange a) (hrange' : InRange b) :
    UnpackedFloat.compare a b = some (compare (exactValue a) (exactValue b)) := by
  have hlimit := limit_pos
  have hlt : ∀ {q r : ℚ}, q < r → some Ordering.lt = some (compare q r) := fun h =>
    congrArg some (compare_lt_iff_lt.2 h).symm
  have hgt : ∀ {q r : ℚ}, r < q → some Ordering.gt = some (compare q r) := fun h =>
    congrArg some (compare_gt_iff_gt.2 h).symm
  have heq : ∀ q : ℚ, some Ordering.eq = some (compare q q) := fun q =>
    congrArg some (compare_eq_iff_eq.2 rfl).symm
  -- the order of the infinities is that of the limit, which all finite values are below
  cases a with
  | notANumber => exact nomatch ha
  | infinity s => cases b with
    | notANumber => exact nomatch hb
    | infinity t =>
      cases s <;> cases t
      · exact heq _
      · exact hlt (neg_lt_self hlimit)
      · exact hgt (neg_lt_self hlimit)
      · exact heq _
    | zero t =>
      cases s
      · exact hlt (neg_neg_of_pos hlimit)
      · exact hgt hlimit
    | finite t n e hn =>
      obtain ⟨hpos, hbelow⟩ := finite_lt_limit hb' hrange'
      cases s <;> cases t
      · exact hlt (neg_lt_neg hbelow)
      · exact hlt ((neg_neg_of_pos hlimit).trans hpos)
      · exact hgt ((neg_neg_of_pos hpos).trans hlimit)
      · exact hgt hbelow
  | zero s => cases b with
    | notANumber => exact nomatch hb
    | infinity t =>
      cases t
      · exact hgt (neg_neg_of_pos hlimit)
      · exact hlt hlimit
    | zero t => exact heq 0
    | finite t n e hn =>
      obtain ⟨hpos, -⟩ := finite_lt_limit hb' hrange'
      cases t
      · exact hgt (neg_neg_of_pos hpos)
      · exact hlt hpos
  | finite s m d hm =>
    obtain ⟨hpos, hbelow⟩ := finite_lt_limit ha' hrange
    cases b with
    | notANumber => exact nomatch hb
    | infinity t =>
      cases s <;> cases t
      · exact hgt (neg_lt_neg hbelow)
      · exact hlt ((neg_neg_of_pos hpos).trans hlimit)
      · exact hgt ((neg_neg_of_pos hlimit).trans hpos)
      · exact hlt hbelow
    | zero t =>
      cases s
      · exact hlt (neg_neg_of_pos hpos)
      · exact hgt hpos
    | finite t n e hn =>
      have hpos' := (finite_lt_limit hb' hrange').1
      cases s <;> cases t
      · change some ((compare d e).then (compare m n)).swap = _
        rw [compare_finite ha' hb', swap_compare]
        rfl
      · exact hlt ((neg_neg_of_pos hpos).trans hpos')
      · exact hgt ((neg_neg_of_pos hpos').trans hpos)
      · exact congrArg some (compare_finite ha' hb')

end Comparisons

variable {x y z : Float} {q r : ℚ}

/-- Only numbers are compared. A comparison that holds need not be guarded against NaN. -/
theorem isNaN_of_le (h : x ≤ y) : x.isNaN = false ∧ y.isNaN = false := by
  have hright : ∀ a, UnpackedFloat.le a .notANumber = false := by
    intro a
    cases a <;> rfl
  rw [le_iff] at h
  constructor
  · change x.toModel.unpack.isNaN = false
    cases hx : x.toModel.unpack with
    | notANumber =>
      rw [hx] at h
      exact nomatch h
    | _ => rfl
  · change y.toModel.unpack.isNaN = false
    cases hy : y.toModel.unpack with
    | notANumber =>
      rw [hy, hright] at h
      exact nomatch h
    | _ => rfl

/-- **The order of doubles is the order of their values.** Infinities are included, at the limits. -/
theorem le_iff_value (hx : x.isNaN = false) (hy : y.isNaN = false) : x ≤ y ↔ value x ≤ value y := by
  rw [le_iff, UnpackedFloat.le, compare_eq hx hy (canonical_unpack _) (canonical_unpack _)
    (inRange_unpack _) (inRange_unpack _)]
  exact Ordering.isLE_iff_ne_gt.trans compare_le_iff_le

/-- For this direction no guard is needed. -/
theorem value_le_of_le (h : x ≤ y) : value x ≤ value y :=
  (le_iff_value (isNaN_of_le h).1 (isNaN_of_le h).2).1 h

/-- The same for the strict order. -/
theorem lt_iff_value (hx : x.isNaN = false) (hy : y.isNaN = false) : x < y ↔ value x < value y := by
  rw [lt_iff, UnpackedFloat.lt, compare_eq hx hy (canonical_unpack _) (canonical_unpack _)
    (inRange_unpack _) (inRange_unpack _), beq_iff_eq, Option.some_inj]
  exact compare_lt_iff_lt

/-- Between numbers one of the two comparisons holds; with NaN neither would. -/
theorem le_of_not_lt (hx : x.isNaN = false) (hy : y.isNaN = false) (h : ¬ x < y) : y ≤ x := by
  rw [lt_iff_value hx hy, not_lt] at h
  exact (le_iff_value hy hx).2 h

/-- What is smaller is no greater. -/
protected theorem le_of_lt (h : x < y) : x ≤ y := by
  rw [lt_iff, UnpackedFloat.lt, beq_iff_eq] at h
  rw [le_iff, UnpackedFloat.le, h]
  rfl

/-- The order is transitive. It is not reflexive, so doubles have no order in the library's sense. -/
protected theorem le_trans (h : x ≤ y) (h' : y ≤ z) : x ≤ z := by
  rw [le_iff_value (isNaN_of_le h).1 (isNaN_of_le h').2]
  exact (value_le_of_le h).trans (value_le_of_le h')

/-- Two numbers that are no greater than each other are equal, though they may be zeros of two
signs. -/
theorem beq_of_le_of_le (h : x ≤ y) (h' : y ≤ x) : (x == y) = true := by
  obtain ⟨hx, hy⟩ := isNaN_of_le h
  change UnpackedFloat.beq x.toModel.unpack y.toModel.unpack = true
  rw [UnpackedFloat.beq, compare_eq hx hy (canonical_unpack _) (canonical_unpack _)
    (inRange_unpack _) (inRange_unpack _), beq_iff_eq, Option.some_inj]
  exact compare_eq_iff_eq.2 ((value_le_of_le h).antisymm (value_le_of_le h'))

/-- The finite doubles are those within the limits. The value of infinity is set to be the limit
itself, so one inequality tells the two apart. -/
theorem isFinite_iff (hx : x.isNaN = false) : x.isFinite = true ↔ |value x| < limit := by
  have hlimit := limit_pos
  have hcanonical := canonical_unpack x.toModel
  have hrange := inRange_unpack x.toModel
  change x.toModel.unpack.isNaN = false at hx
  change x.toModel.unpack.isFinite = true ↔ |exactValue x.toModel.unpack| < limit
  cases hparts : x.toModel.unpack with
  | notANumber =>
    rw [hparts] at hx
    exact nomatch hx
  | infinity s =>
    -- the value of infinity is the limit itself, by definition
    have habs : |exactValue (.infinity s)| = limit := by
      cases s with
      | positive => exact abs_of_pos hlimit
      | negative => exact (abs_neg limit).trans (abs_of_pos hlimit)
    rw [habs]
    exact ⟨(nomatch ·), fun h => absurd h (lt_irrefl _)⟩
  | zero s =>
    rw [exactValue_zero, abs_zero]
    exact ⟨fun _ => hlimit, fun _ => rfl⟩
  | finite s m e hm =>
    rw [hparts] at hcanonical hrange
    obtain ⟨hpos, hbelow⟩ := finite_lt_limit hcanonical hrange
    have habs : |exactValue (.finite s m e hm)| = m * 2 ^ e := by
      cases s with
      | positive => exact abs_of_pos hpos
      | negative => exact (abs_neg _).trans (abs_of_pos hpos)
    rw [habs]
    exact ⟨fun _ => hbelow, fun _ => rfl⟩

/-! ## Rounding and the order

`rounded` respects the order and keeps doubles, and these two facts are used in one combination over
and over: a result whose exact number is not beyond a double is not beyond that double. It turns a
comparison with the exact result, which is a rational number, into one with the computed result. -/

/-- **Rounding respects the order**, also where it overflows: cutting off at the limits does. -/
theorem rounded_mono (h : q ≤ r) : rounded q ≤ rounded r :=
  max_le_max le_rfl (min_le_min (nearest_mono h) le_rfl)

/-- It respects the sign, as the limits lie the same way on both sides. -/
theorem rounded_neg (q : ℚ) : rounded (-q) = -rounded q := by
  have hlimit := limit_pos
  unfold rounded
  rw [nearest_neg]
  obtain hlow | hlow := le_total (nearest q) (-limit)
  · rw [min_eq_right (by linarith), max_eq_right (by linarith), min_eq_left (by linarith),
      max_eq_left hlow, neg_neg]
  · rw [min_eq_left (by linarith)]
    obtain hhigh | hhigh := le_total (nearest q) limit
    · rw [max_eq_right (by linarith), min_eq_left hhigh, max_eq_right hlow]
    · rw [max_eq_left (by linarith), min_eq_right hhigh, max_eq_right (by linarith)]

/-- It takes no number over zero. -/
theorem rounded_nonneg (h : 0 ≤ q) : 0 ≤ rounded q :=
  le_max_of_le_right (le_min (nearest_nonneg h) limit_pos.le)

/-- The size of a rounded number is its size, rounded. -/
theorem abs_rounded (q : ℚ) : |rounded q| = rounded |q| := by
  obtain h | h := le_total 0 q
  · rw [abs_of_nonneg h, abs_of_nonneg (rounded_nonneg h)]
  · have hneg := rounded_nonneg (neg_nonneg.2 h)
    rw [rounded_neg] at hneg
    rw [abs_of_nonpos h, rounded_neg, abs_of_nonpos (neg_nonneg.1 hneg)]

/-- The limit is a power of two, and would be a double if it were not the first that is too great. -/
theorem nearest_limit : nearest limit = limit :=
  nearest_of_multiple (k := 2 ^ 52) (e := 972)
    (by rw [limit, Int.cast_pow, Int.cast_ofNat, ← zpow_natCast, ← zpow_add₀ two_ne_zero]; rfl)
    (by decide) (by decide)

/-- Doubles stay what they are. Together with monotony this gives all bounds on rounded results. -/
theorem rounded_value (hx : x.isNaN = false) : rounded (value x) = value x := by
  have hlimit := limit_pos
  by_cases hfinite : x.isFinite = true
  · obtain ⟨hlow, hhigh⟩ := abs_lt.1 ((isFinite_iff hx).1 hfinite)
    have hself : nearest (value x) = value x :=
      (isNearest_self hfinite (canonical_unpack x.toModel)).value.symm
    rw [rounded, hself, min_eq_left hhigh.le, max_eq_right hlow.le]
  · change x.toModel.unpack.isNaN = false at hx
    change ¬ x.toModel.unpack.isFinite = true at hfinite
    unfold value
    cases hparts : x.toModel.unpack with
    | notANumber =>
      rw [hparts] at hx
      exact nomatch hx
    | infinity s =>
      rw [exactValue, rounded, nearest_signed, nearest_limit, rounded_signed_of_ge s le_rfl]
    | zero s => exact absurd (congrArg UnpackedFloat.isFinite hparts) hfinite
    | finite s m e hm => exact absurd (congrArg UnpackedFloat.isFinite hparts) hfinite

/-- Rounding does not pass a double from below. -/
theorem IsRounded.value_le (h : IsRounded q x) (hy : y.isNaN = false) (hq : q ≤ value y) :
    value x ≤ value y := by
  rw [h.value_eq, ← rounded_value hy]
  exact rounded_mono hq

/-- Nor does it pass one from above. -/
theorem IsRounded.le_value (h : IsRounded q x) (hy : y.isNaN = false) (hq : value y ≤ q) :
    value y ≤ value x := by
  rw [h.value_eq, ← rounded_value hy]
  exact rounded_mono hq

/-- A number of 53 bits below another one is below the one before it, if that has 53 bits too or the
least exponent. -/
theorem mul_le_of_mul_lt {k m : ℕ} {d e : ℤ} (hk : k < 2 ^ 53) (hd : -1074 ≤ d)
    (hm : 2 ^ 52 < m ∨ e ≤ -1074) (h : (k * 2 ^ d : ℚ) < m * 2 ^ e) :
    (k * 2 ^ d : ℚ) ≤ (m - 1) * 2 ^ e := by
  obtain hle | hgt := le_or_gt e d
  · -- it is a multiple of the last place
    obtain ⟨n, rfl⟩ : ∃ n : ℕ, d = e + n := ⟨(d - e).toNat, by omega⟩
    have hsplit : (k * 2 ^ (e + n) : ℚ) = (k * 2 ^ n : ℕ) * 2 ^ e := by
      rw [zpow_add₀ two_ne_zero, zpow_natCast]
      push_cast
      ring
    rw [hsplit] at h ⊢
    have hnat : k * 2 ^ n < m := by exact_mod_cast lt_of_mul_lt_mul_right h (by positivity)
    have hnat' : k * 2 ^ n + 1 ≤ m := hnat
    have hcast : ((k * 2 ^ n : ℕ) : ℚ) + 1 ≤ m := by exact_mod_cast hnat'
    exact mul_le_mul_of_nonneg_right (by linarith) (by positivity)
  · -- it is below all numbers with this last place
    have hbits : (k : ℚ) ≤ 2 ^ 53 := by exact_mod_cast hk.le
    have hfull : 2 ^ 52 + 1 ≤ m := hm.resolve_right (by omega)
    have hcast : (2 : ℚ) ^ 52 + 1 ≤ m := by exact_mod_cast hfull
    calc (k * 2 ^ d : ℚ) ≤ 2 ^ 53 * 2 ^ d := mul_le_mul_of_nonneg_right hbits (by positivity)
      _ = 2 ^ 52 * 2 ^ (d + 1) := by
        rw [zpow_add_one₀ two_ne_zero]
        ring
      _ ≤ 2 ^ 52 * 2 ^ e :=
        mul_le_mul_of_nonneg_left (zpow_le_zpow_right₀ one_le_two hgt) (by positivity)
      _ ≤ (m - 1) * 2 ^ e := mul_le_mul_of_nonneg_right (by linarith) (by positivity)

/-- Between a double and the one before it there is none. The least mantissa of 53 bits is left out,
since the number before it has a smaller exponent. -/
theorem value_le_of_lt {m : ℕ} {e : ℤ} (hpos : 0 < m) (hm : 2 ^ 52 < m ∨ e ≤ -1074)
    (h : value x < m * 2 ^ e) : value x ≤ (m - 1) * 2 ^ e := by
  have hbound : (0 : ℚ) ≤ (m - 1) * 2 ^ e := by
    have hcast : (1 : ℚ) ≤ m := by exact_mod_cast hpos
    exact mul_nonneg (by linarith) (by positivity)
  have hcanonical := canonical_unpack x.toModel
  unfold value at h ⊢
  cases hparts : x.toModel.unpack with
  | notANumber => exact hbound
  | zero s => exact hbound
  | infinity s =>
    cases s with
    | negative => exact (neg_neg_of_pos limit_pos).le.trans hbound
    | positive =>
      have hlimit : limit = ((2 ^ 52 : ℕ) : ℚ) * 2 ^ (972 : ℤ) := by
        rw [limit, Nat.cast_pow, Nat.cast_ofNat, ← zpow_natCast, ← zpow_add₀ two_ne_zero]
        rfl
      rw [hparts, exactValue, signed, hlimit] at h
      rw [exactValue, signed, hlimit]
      exact mul_le_of_mul_lt (by decide) (by decide) hm h
  | finite s k d hk =>
    rw [hparts] at h hcanonical
    cases s with
    | negative =>
      have hpositive : (0 : ℚ) < k * 2 ^ d := by positivity
      exact (neg_neg_of_pos hpositive).le.trans hbound
    | positive =>
      have hbits := (mantissa_of_canonical hcanonical).1
      exact mul_le_of_mul_lt hbits (least_le_of_canonical hcanonical) hm h

/-! ## Finite results

Most bounds of the library are constants such as `20.0` that are doubles exactly. `Exactly` says so
and can be decided, so a constant is introduced by `with_unfolding_all decide`, and from then on it
is the rational number. -/

/-- The double is finite and stands for this number. -/
structure Exactly (x : Float) (q : ℚ) : Prop where
  /-- it is no infinity and not NaN -/
  isFinite : x.isFinite = true
  /-- its value is the number -/
  value_eq : value x = q

instance (x : Float) (q : ℚ) : Decidable (Exactly x q) :=
  decidable_of_iff (x.isFinite = true ∧ value x = q) ⟨fun h => ⟨h.1, h.2⟩, fun h => ⟨h.1, h.2⟩⟩

/-- A number that stands for something is not NaN. -/
theorem Exactly.isNaN (h : Exactly x q) : x.isNaN = false := isNaN_of_isFinite h.isFinite

/-- It is not changed by rounding. -/
theorem Exactly.rounded_eq (h : Exactly x q) : rounded q = q := by
  rw [← h.value_eq, rounded_value h.isNaN]

/-- Its number is within the limits. -/
theorem Exactly.abs_lt_limit (h : Exactly x q) : |q| < limit :=
  h.value_eq ▸ (isFinite_iff h.isNaN).1 h.isFinite

/-- Zero. -/
theorem exactly_zero : Exactly 0.0 0 := by with_unfolding_all decide

/-- One. -/
theorem exactly_one : Exactly 1.0 1 := by with_unfolding_all decide

/-- Two. -/
theorem exactly_two : Exactly 2.0 2 := by with_unfolding_all decide

/-- A result no greater than a finite double is finite. -/
theorem IsRounded.isFinite (h : IsRounded q x) (hy : Exactly y r) (hq : |q| ≤ r) :
    x.isFinite = true := by
  rw [isFinite_iff h.isNaN, h.value_eq, abs_rounded]
  calc rounded |q| ≤ rounded r := rounded_mono hq
    _ = r := hy.rounded_eq
    _ ≤ |r| := le_abs_self r
    _ < limit := hy.abs_lt_limit

/-- A result that is a finite double already is not changed. -/
theorem IsRounded.exact (h : IsRounded q x) (hy : Exactly y q) : Exactly x q := by
  have hsame : value x = q := h.value_eq.trans hy.rounded_eq
  refine ⟨?_, hsame⟩
  rw [isFinite_iff h.isNaN, hsame]
  exact hy.abs_lt_limit

/-- A result is off by half a unit in its last place at most. The power of two is an upper bound on
the result, so the error is known without knowing the result. -/
theorem IsRounded.abs_sub_le {e : ℤ} (h : IsRounded q x) (hlow : -1074 ≤ e) (hhigh : e ≤ 970)
    (hq : |q| < 2 ^ (53 + e)) : |value x - q| ≤ 2 ^ (e - 1) := by
  have hnear : |nearest q - q| ≤ 2 ^ (e - 1) := by
    by_cases hzero : q = 0
    · rw [hzero, nearest_zero, sub_zero, abs_zero]
      positivity
    · have hplace := lastPlace_le_of_lt hzero hlow hq
      exact (abs_nearest_sub_le q).trans (zpow_le_zpow_right₀ one_le_two (by omega))
  have hsame : rounded q = nearest q := by
    have hsum : (2 : ℚ) ^ (53 + e) + 2 ^ (e - 1) ≤ limit := by
      have hlast : (2 : ℚ) ^ (e - 1) ≤ 2 ^ (53 + e) := zpow_le_zpow_right₀ one_le_two (by omega)
      have hdouble : (2 : ℚ) ^ (53 + e) + 2 ^ (53 + e) = 2 ^ (54 + e) := by
        rw [← two_mul, ← zpow_one_add₀ two_ne_zero]
        congr 1
        omega
      have hlimit : (2 : ℚ) ^ (54 + e) ≤ limit := zpow_le_zpow_right₀ one_le_two (by omega)
      linarith
    obtain ⟨hbelow, habove⟩ := abs_lt.1 hq
    obtain ⟨hdown, hup⟩ := abs_le.1 hnear
    rw [rounded, min_eq_left (by linarith), max_eq_right (by linarith)]
  rw [h.value_eq, hsame]
  exact hnear

/-- The second double is the one after the first. Where a condition changes between the two it
changes nowhere else, so two evaluations settle it for every double. -/
def Adjacent (x y : Float) : Prop :=
  x.isNaN = false ∧ y.isNaN = false ∧
    ∃ (m : ℕ) (e : ℤ), 0 < m ∧ (2 ^ 52 < m ∨ e ≤ -1074) ∧ value x = (m - 1) * 2 ^ e ∧
      value y = m * 2 ^ e

/-- A mantissa and an exponent show it, and the rest is a computation. -/
theorem Adjacent.of_parts (m : ℕ) (e : ℤ) (h : x.isNaN = false ∧ y.isNaN = false ∧ 0 < m ∧
    (2 ^ 52 < m ∨ e ≤ -1074) ∧ value x = (m - 1) * 2 ^ e ∧ value y = m * 2 ^ e) : Adjacent x y :=
  ⟨h.1, h.2.1, m, e, h.2.2⟩

/-- What is below the second is not above the first. -/
theorem Adjacent.le_of_lt (h : Adjacent x y) (hlt : z < y) : z ≤ x := by
  obtain ⟨hx, hy, m, e, hpos, hm, hvalue, hvalue'⟩ := h
  have hz := (isNaN_of_le (Double.le_of_lt hlt)).1
  rw [lt_iff_value hz hy, hvalue'] at hlt
  rw [le_iff_value hz hx, hvalue]
  exact value_le_of_lt hpos hm hlt

/-- What is above the first is not below the second. -/
theorem Adjacent.le_of_lt' (h : Adjacent x y) (hlt : x < z) : y ≤ z := by
  have hz := (isNaN_of_le (Double.le_of_lt hlt)).2
  refine le_of_not_lt hz h.2.1 fun hlt' => ?_
  rw [lt_iff_value h.1 hz] at hlt
  exact absurd (value_le_of_le (h.le_of_lt hlt')) hlt.not_ge

/-! ## Magnitudes

The absolute value of a double is that of its value. Conditions of the source are often written with
`abs`, and a finite bound on it makes the number itself finite. -/

/-- Taking the absolute value changes nothing but the sign. -/
theorem unpack_abs (x : Float) : x.abs.toModel.unpack = x.toModel.unpack.abs := by
  have hcanonical := canonical_unpack x.toModel
  have hrange := inRange_unpack x.toModel
  refine unpack_pack_of_canonical ?_ ?_
  · cases hparts : x.toModel.unpack with
    | finite s m e hm =>
      rw [hparts] at hcanonical
      exact hcanonical
    | _ => trivial
  · cases hparts : x.toModel.unpack with
    | finite s m e hm =>
      rw [hparts] at hrange
      exact hrange
    | _ => trivial

/-- So the value is the absolute value. -/
theorem value_abs (x : Float) : value x.abs = |value x| := by
  have habs : ∀ (s : Sign) {q : ℚ}, 0 ≤ q → q = |signed s q| := by
    intro s q hq
    cases s with
    | positive => exact (abs_of_nonneg hq).symm
    | negative => exact ((abs_neg q).trans (abs_of_nonneg hq)).symm
  unfold value
  rw [unpack_abs]
  cases x.toModel.unpack with
  | notANumber => exact abs_zero.symm
  | zero s => exact abs_zero.symm
  | infinity s => exact habs s limit_pos.le
  | finite s m e hm =>
    have hnonneg : (0 : ℚ) ≤ m * 2 ^ e := by positivity
    exact habs s hnonneg

/-- And what was not a number is none. -/
theorem isNaN_abs (x : Float) : x.abs.isNaN = x.isNaN := by
  change x.abs.toModel.unpack.isNaN = x.toModel.unpack.isNaN
  rw [unpack_abs]
  cases x.toModel.unpack <;> rfl

/-- What is no greater than a finite number is finite. -/
theorem isFinite_of_abs_le (h : x.abs ≤ y) (hy : y.isFinite = true) : x.isFinite = true := by
  obtain ⟨hx', hy'⟩ := isNaN_of_le h
  have hle := value_le_of_le h
  have hx : x.isNaN = false := (isNaN_abs x).symm.trans hx'
  rw [value_abs] at hle
  rw [isFinite_iff hx]
  exact hle.trans_lt ((le_abs_self _).trans_lt ((isFinite_iff hy').1 hy))

/-- What is no greater than a finite number has no greater value. -/
theorem abs_value_le_of_abs_le (hy : Exactly y q) (h : x.abs ≤ y) :
    x.isFinite = true ∧ |value x| ≤ q := by
  have hle := value_le_of_le h
  rw [value_abs, hy.value_eq] at hle
  exact ⟨isFinite_of_abs_le h hy.isFinite, hle⟩

/-- Packing loses no infinity and no NaN. -/
theorem isFinite_of_pack {a : UnpackedFloat} (h : (Float.Model.pack a).unpack.isFinite = true) :
    a.isFinite = true := by
  cases a with
  | notANumber => exact nomatch h
  | infinity s => cases s <;> exact nomatch h
  | _ => rfl

/-- A finite difference is one of finite numbers. Whatever is taken from infinity, it does not
become finite. -/
theorem isFinite_of_sub (h : (x - y).isFinite = true) : x.isFinite = true ∧ y.isFinite = true := by
  have hparts : (UnpackedFloat.sub Format.binary64 x.toModel.unpack y.toModel.unpack).isFinite = true :=
    isFinite_of_pack h
  change x.toModel.unpack.isFinite = true ∧ y.toModel.unpack.isFinite = true
  obtain ⟨a, ha⟩ : ∃ a, x.toModel.unpack = a := ⟨_, rfl⟩
  obtain ⟨b, hb⟩ : ∃ b, y.toModel.unpack = b := ⟨_, rfl⟩
  rw [ha, hb] at hparts ⊢
  cases a with
  | notANumber => exact nomatch hparts
  | infinity s => cases b with
    | infinity t => cases s <;> cases t <;> exact nomatch hparts
    | _ => exact nomatch hparts
  | _ => cases b with
    | notANumber => exact nomatch hparts
    | infinity t => exact nomatch hparts
    | _ => exact ⟨rfl, rfl⟩

end Telescope.Double
