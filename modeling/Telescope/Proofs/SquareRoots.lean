import Telescope.Proofs.DoubleOrder

/-!
# Square roots of doubles

The root of a double is rounded like the result of any other operation, but it need not be a rational
number. So it is described by the rational numbers around it.

* `exists_approximates_sqrt`: the whole part of a root and the rest of the radicand tell in which half
  of the last place the root lies;
* `exists_isRounded_sqrt`: between any two numbers whose squares enclose a double there is one that
  rounds to the root. So the root is between what these two round to (`le_value_sqrt`,
  `value_sqrt_le`);
* `IsNonneg` doubles may be infinite. Their sums and their roots are such doubles again, and never NaN.

There are no real numbers in this module. Whoever uses a root knows two rational numbers that
enclose it, by their squares; what the root rounds to then lies between what these round to. This is
enough for every bound, and the root of a sum of squares is compared with its summands by squares
alone.
-/

namespace Telescope.Double

open Float.Model (Format UnpackedFloat totalExponent)
open Float.Model.UnpackedFloat

/-! ## Whole roots

The root of a double is computed as the whole root of its mantissa, shifted by an even number of
places. The rest behind the whole root tells on which side of a half the root lies: it is a half
exactly for no whole number, so two cases are enough. -/

section Whole

variable {n : ℕ} {lo hi : ℚ}

/-- Two intervals that overlap have a point in common. -/
theorem exists_mem_of_overlap {a b : ℚ} (hab : a < b) (hlo : lo < b) (hhi : a < hi) (h : lo ≤ hi) :
    ∃ y, a < y ∧ y < b ∧ lo ≤ y ∧ y ≤ hi := by
  refine ⟨max lo (min hi ((a + b) / 2)), ?_, ?_, le_max_left _ _, max_le h (min_le_left _ _)⟩
  · exact lt_max_of_lt_right (lt_min hhi (by linarith))
  · exact max_lt hlo (min_lt_of_right_lt (by linarith))

/-- What the rest behind a whole root says about the root. -/
def rootAccuracy (n : ℕ) : Accuracy :=
  let root := Nat.sqrt n
  let rest := n - root * root
  if rest = 0 then .exact else .inexact (if rest ≤ root then .lt else .gt)

/-- Some number between those whose squares enclose `n` has the whole root and the rest of `n`. -/
theorem exists_approximates_sqrt (hlo' : lo ^ 2 ≤ n) (hhi : 0 ≤ hi) (hhi' : n ≤ hi ^ 2) :
    ∃ y, lo ≤ y ∧ y ≤ hi ∧
      Approximates (ExtendedMantissa.ofMantissaAndAccuracy (Nat.sqrt n) (rootAccuracy n)) y := by
  have hordered : lo ≤ hi := le_of_sq_le_sq (hlo'.trans hhi') hhi
  obtain ⟨root, hroot⟩ : ∃ root, Nat.sqrt n = root := ⟨_, rfl⟩
  obtain ⟨rest, hrest⟩ : ∃ rest, n = root * root + rest :=
    ⟨n - root * root, (Nat.add_sub_cancel' (hroot ▸ Nat.sqrt_le n)).symm⟩
  have hlt : rest < 2 * root + 1 := by
    have hnext : n < (root + 1) * (root + 1) := hroot ▸ Nat.lt_succ_sqrt n
    rw [hrest] at hnext
    linarith
  have hsquare : (n : ℚ) = root ^ 2 + rest := by
    rw [hrest]
    push_cast
    ring
  -- the accuracy is told by the rest alone: none, up to the root, or more
  have haccuracy : rootAccuracy n =
      if rest = 0 then .exact else .inexact (if rest ≤ root then .lt else .gt) := by
    have hdiff : n - root * root = rest := by omega
    unfold rootAccuracy
    dsimp only
    rw [hroot, hdiff]
  have hnonneg : (0 : ℚ) ≤ root := Nat.cast_nonneg root
  rw [haccuracy, hroot]
  rw [hsquare] at hlo' hhi'
  by_cases hzero : rest = 0
  · rw [if_pos hzero]
    rw [hzero, Nat.cast_zero, add_zero] at hlo' hhi'
    exact ⟨root, le_of_sq_le_sq hlo' hnonneg, le_of_sq_le_sq hhi' hhi, approximates_exact root⟩
  · have hpos : (1 : ℚ) ≤ rest := by exact_mod_cast Nat.one_le_iff_ne_zero.2 hzero
    have habove : (root : ℚ) < hi := lt_of_pow_lt_pow_left₀ 2 hhi (by linarith)
    rw [if_neg hzero]
    by_cases hhalf : rest ≤ root
    · -- the rest is too small for half a place
      have hsmall : (rest : ℚ) ≤ root := by exact_mod_cast hhalf
      have hbelow : lo < root + 1 / 2 := lt_of_pow_lt_pow_left₀ 2 (by linarith) (by nlinarith)
      obtain ⟨y, hy, hy', hmem⟩ := exists_mem_of_overlap (by linarith) hbelow habove hordered
      rw [if_pos hhalf]
      exact ⟨y, hmem.1, hmem.2, hy, hy'⟩
    · -- and here it is too great
      have hgreat : (root : ℚ) + 1 ≤ rest := by exact_mod_cast Nat.lt_of_not_le hhalf
      have hmost : (rest : ℚ) ≤ 2 * root := by exact_mod_cast Nat.le_of_lt_succ hlt
      have habove' : (root : ℚ) + 1 / 2 < hi := lt_of_pow_lt_pow_left₀ 2 hhi (by nlinarith)
      have hbelow : lo < root + 1 := lt_of_pow_lt_pow_left₀ 2 (by linarith) (by nlinarith)
      obtain ⟨y, hy, hy', hmem⟩ := exists_mem_of_overlap (by linarith) hbelow habove' hordered
      rw [if_neg hhalf]
      exact ⟨y, hmem.1, hmem.2, hy, hy'⟩

end Whole

/-! ## Roots of doubles

Between the bounds there need not be a rational number whose square is the radicand, but there is
one that rounds like the root, and that is all that `IsRounded` asks for. -/

section Root

variable {m : ℕ} {e : ℤ} {x : Float} {lo hi : ℚ}

/-- The radicand is taken with so many bits that the whole root has all that a double has. What is
beyond the root is told by the rest. -/
theorem isNearest_sqrt (hm : 0 < m) (hlo : lo ^ 2 ≤ m * 2 ^ e) (hhi : 0 ≤ hi)
    (hhi' : m * 2 ^ e ≤ hi ^ 2) :
    ∃ q, lo ≤ q ∧ q ≤ hi ∧
      IsNearest q (UnpackedFloat.sqrt Format.binary64 (.finite .positive m e hm)) := by
  obtain ⟨half, hhalf⟩ : ∃ half, (totalExponent m e - 1) / 2 = half := ⟨_, rfl⟩
  obtain ⟨target, htarget⟩ : ∃ target, min (e / 2) (Format.binary64.targetExponent
      ((totalExponent m e + 1) / 2)) = target := ⟨_, rfl⟩
  obtain ⟨shift, hshift⟩ : ∃ shift : ℕ, e = target + target + shift :=
    ⟨(e - 2 * target).toNat, by omega⟩
  have hamount : (e - 2 * target).toNat = shift := by omega
  have hsqrt : UnpackedFloat.sqrt Format.binary64 (.finite .positive m e hm) =
      roundWithAccuracy Format.binary64 .positive (Nat.sqrt (m <<< shift)) target
        (rootAccuracy (m <<< shift)) := by
    have hcore : sqrtCore Format.binary64 m e =
        (Nat.sqrt (m <<< shift), target, rootAccuracy (m <<< shift)) := by
      rw [← hamount, ← htarget]
      rfl
    rw [UnpackedFloat.sqrt, hcore]
  have hunit : (0 : ℚ) < 2 ^ target := by positivity
  have hvalue : (m * 2 ^ e : ℚ) = (m <<< shift : ℕ) * (2 ^ target) ^ 2 := by
    rw [Nat.shiftLeft_eq, hshift, zpow_add₀ two_ne_zero, zpow_add₀ two_ne_zero, zpow_natCast]
    push_cast
    ring
  -- the root is at least the power of two whose square the radicand reaches
  have hpower : ((2 : ℚ) ^ half) ^ 2 ≤ m * 2 ^ e := by
    rw [sq, ← zpow_add₀ two_ne_zero]
    exact (zpow_le_zpow_right₀ one_le_two (by omega)).trans (two_zpow_totalExponent hm e).1
  obtain ⟨low, hlow, hlow', hlow''⟩ : ∃ low : ℚ, lo ≤ low ∧ 2 ^ half ≤ low ∧ low ^ 2 ≤ m * 2 ^ e := by
    obtain hle | hle := le_total lo (2 ^ half)
    · exact ⟨2 ^ half, hle, le_rfl, hpower⟩
    · exact ⟨lo, le_rfl, hle, hlo⟩
  have hlower : (low / 2 ^ target) ^ 2 ≤ (m <<< shift : ℕ) := by
    rwa [div_pow, div_le_iff₀ (by positivity), ← hvalue]
  have hupper : (m <<< shift : ℕ) ≤ (hi / 2 ^ target) ^ 2 := by
    rwa [div_pow, le_div_iff₀ (by positivity), ← hvalue]
  obtain ⟨y, hy, hy', happrox⟩ := exists_approximates_sqrt hlower (by positivity) hupper
  rw [div_le_iff₀ hunit] at hy
  rw [le_div_iff₀ hunit] at hy'
  have hroot : (2 : ℚ) ^ half ≤ y * 2 ^ target := hlow'.trans hy
  have hpos : (0 : ℚ) < y * 2 ^ target := lt_of_lt_of_le (by positivity) hroot
  have hplace : target ≤ lastPlace (y * 2 ^ target) := by
    have hlog := (Int.zpow_le_iff_le_log (b := 2) (by norm_num) hpos).1 (by exact_mod_cast hroot)
    rw [targetExponent_eq] at htarget
    rw [lastPlace, abs_of_pos hpos]
    omega
  refine ⟨y * 2 ^ target, hlow.trans hy, hy', ?_⟩
  rw [hsqrt]
  exact isNearest_roundWithAccuracy .positive happrox rfl hpos hplace

/-- **The root is rounded once.** Between two numbers whose squares enclose a double there is one that
rounds to the root. -/
theorem exists_isRounded_sqrt (hx : x.isFinite = true) (hnonneg : 0 ≤ value x) (hlo : lo ^ 2 ≤ value x)
    (hhi : 0 ≤ hi) (hhi' : value x ≤ hi ^ 2) : ∃ q, lo ≤ q ∧ q ≤ hi ∧ IsRounded q x.sqrt := by
  have hround : ∀ {a : UnpackedFloat} {q : ℚ}, x.toModel.unpack = a →
      IsNearest q (UnpackedFloat.sqrt Format.binary64 a) → IsRounded q x.sqrt := by
    rintro a q rfl h
    exact isRounded_pack h
  have hfinite : x.toModel.unpack.isFinite = true := hx
  unfold value at hnonneg hlo hhi'
  cases hparts : x.toModel.unpack with
  | notANumber =>
    rw [hparts] at hfinite
    exact nomatch hfinite
  | infinity s =>
    rw [hparts] at hfinite
    exact nomatch hfinite
  | zero s =>
    rw [hparts, exactValue_zero] at hlo
    have hle : lo ≤ 0 := le_of_sq_le_sq (by simpa using hlo) le_rfl
    exact ⟨0, hle, hhi, hround hparts (isNearest_zero s)⟩
  | finite s m e hm =>
    rw [hparts] at hnonneg hlo hhi'
    cases s with
    | negative =>
      have hpos : (0 : ℚ) < m * 2 ^ e := by positivity
      exact absurd hnonneg (neg_neg_of_pos hpos).not_ge
    | positive =>
      obtain ⟨q, hq, hq', hnearest⟩ := isNearest_sqrt hm hlo hhi hhi'
      exact ⟨q, hq, hq', hround hparts hnearest⟩

end Root

/-! ## Infinite summands

A sum of squares can be infinite although the vector is finite. The lemmas on rounding are about
finite operands, so the infinite ones need a look at the parts once more. -/

/-- A number that is not finite is infinite. -/
theorem exists_unpack_infinity {x : Float} (hx : x.isNaN = false) (h : x.isFinite = false) :
    ∃ s, x.toModel.unpack = .infinity s := by
  change x.toModel.unpack.isNaN = false at hx
  change x.toModel.unpack.isFinite = false at h
  cases hparts : x.toModel.unpack with
  | infinity s => exact ⟨s, rfl⟩
  | notANumber =>
    rw [hparts] at hx
    exact nomatch hx
  | zero s | finite s m e hm =>
    rw [hparts] at h
    exact nomatch h

/-- Nothing finite changes an infinite number. -/
theorem infinity_add (s : Sign) {b : UnpackedFloat} (hb : b.isFinite = true) :
    UnpackedFloat.add Format.binary64 (.infinity s) b = .infinity s := by
  cases b with
  | notANumber | infinity t => exact nomatch hb
  | zero t | finite t m e hm => simp [UnpackedFloat.add]

/-- The same with the infinite summand behind. -/
theorem add_infinity (s : Sign) {a : UnpackedFloat} (ha : a.isFinite = true) :
    UnpackedFloat.add Format.binary64 a (.infinity s) = .infinity s := by
  cases a with
  | notANumber | infinity t => exact nomatch ha
  | zero t | finite t m e hm => simp [UnpackedFloat.add]

/-! ## Doubles from zero on

Squares, their sums and the roots of these are doubles from zero on. Among such numbers nothing is
NaN and nothing cancels, so they are ordered and added like rational numbers that end at the limit. -/

/-- The double is a number from zero on, perhaps infinite. -/
structure IsNonneg (x : Float) : Prop where
  /-- it is a number -/
  isNaN : x.isNaN = false
  /-- and not below zero -/
  nonneg : 0 ≤ value x

variable {x y : Float} {q : ℚ}

/-- A rounded number from zero on is one of them. -/
theorem IsRounded.isNonneg (h : IsRounded q x) (hq : 0 ≤ q) : IsNonneg x :=
  ⟨h.isNaN, h.value_eq ▸ rounded_nonneg hq⟩

/-- No value is beyond the limit. -/
theorem rounded_le_limit (q : ℚ) : rounded q ≤ limit :=
  max_le (neg_le_self limit_pos.le) (min_le_right _ _)

/-- Powers of two stay what they are, if they are doubles. -/
theorem rounded_two_zpow {k : ℤ} (hlow : -1074 ≤ k) (hhigh : k < 1024) : rounded (2 ^ k) = 2 ^ k := by
  have hlimit := limit_pos
  have hpos : (0 : ℚ) < 2 ^ k := by positivity
  have hbelow : (2 : ℚ) ^ k < limit := zpow_lt_zpow_right₀ one_lt_two hhigh
  have hnearest : nearest (2 ^ k) = 2 ^ k :=
    nearest_of_multiple (k := 1) (by rw [Int.cast_one, one_mul]) (by decide) hlow
  rw [rounded, hnearest, min_eq_left hbelow.le, max_eq_right (by linarith)]

/-- The least double above zero. So a number that is not zero has a root that is far from zero. -/
theorem two_zpow_le_value (h : 0 < value x) : (2 : ℚ) ^ (-1074 : ℤ) ≤ value x := by
  by_contra hlt
  have hle := value_le_of_lt (m := 1) (e := -1074) one_pos (.inr le_rfl) (by simpa using hlt)
  rw [Nat.cast_one, sub_self, zero_mul] at hle
  exact hle.not_gt h

/-- What is beyond the limit becomes infinite. -/
theorem rounded_of_limit_le (h : limit ≤ q) : rounded q = limit := by
  have hnearest : limit ≤ nearest q := nearest_limit.symm.trans_le (nearest_mono h)
  rw [rounded, min_eq_right hnearest, max_eq_right (neg_le_self limit_pos.le)]

namespace IsNonneg

/-- Of these doubles only one is not finite. -/
theorem unpack_eq (hx : IsNonneg x) (h : x.isFinite = false) :
    x.toModel.unpack = .infinity .positive := by
  have hnonneg : 0 ≤ exactValue x.toModel.unpack := hx.nonneg
  obtain ⟨s, hs⟩ := exists_unpack_infinity hx.isNaN h
  rw [hs] at hnonneg ⊢
  cases s with
  | positive => rfl
  | negative => exact absurd hnonneg (neg_neg_of_pos limit_pos).not_ge

/-- The one that is not finite stands at the limit. -/
theorem value_eq_limit (hx : IsNonneg x) (h : x.isFinite = false) : value x = limit := by
  rw [value, hx.unpack_eq h]
  rfl

/-- All of them are at most at the limit. -/
theorem value_le_limit (hx : IsNonneg x) : value x ≤ limit := by
  rw [← rounded_value hx.isNaN]
  exact rounded_le_limit _

/-- The finite ones are those below it. -/
theorem isFinite_iff (hx : IsNonneg x) : x.isFinite = true ↔ value x < limit := by
  rw [Double.isFinite_iff hx.isNaN, abs_of_nonneg hx.nonneg]

/-- Positive infinity is one of them. -/
theorem of_unpack_infinity (h : x.toModel.unpack = .infinity .positive) :
    IsNonneg x ∧ value x = limit := by
  have hvalue : value x = limit := congrArg exactValue h
  exact ⟨⟨congrArg UnpackedFloat.isNaN h, hvalue ▸ limit_pos.le⟩, hvalue⟩

/-- An infinite summand makes the sum infinite. -/
theorem unpack_add (hx : IsNonneg x) (hy : IsNonneg y) (h : ¬ (x.isFinite = true ∧ y.isFinite = true)) :
    (x + y).toModel.unpack = .infinity .positive := by
  have hsum : UnpackedFloat.add Format.binary64 x.toModel.unpack y.toModel.unpack =
      .infinity .positive := by
    cases hfinite : x.isFinite with
    | false =>
      rw [hx.unpack_eq hfinite]
      cases hfinite' : y.isFinite with
      | false => simp [hy.unpack_eq hfinite', UnpackedFloat.add]
      | true => exact infinity_add .positive hfinite'
    | true =>
      rw [hy.unpack_eq (by simpa [hfinite] using h)]
      exact add_infinity .positive hfinite
  change (Float.Model.pack (UnpackedFloat.add Format.binary64 x.toModel.unpack
    y.toModel.unpack)).unpack = _
  rw [hsum]
  rfl

/-- Such sums are rounded, also where they are infinite. -/
theorem isRounded_add (hx : IsNonneg x) (hy : IsNonneg y) : IsRounded (value x + value y) (x + y) := by
  by_cases hfinite : x.isFinite = true ∧ y.isFinite = true
  · exact Double.isRounded_add hfinite.1 hfinite.2
  · obtain ⟨hnonneg, hvalue⟩ := of_unpack_infinity (hx.unpack_add hy hfinite)
    have hgreat : limit ≤ value x + value y := by
      have hx' := hx.nonneg
      have hy' := hy.nonneg
      rw [hx.isFinite_iff, hy.isFinite_iff, not_and_or, not_lt, not_lt] at hfinite
      obtain hle | hle := hfinite <;> linarith
    exact ⟨hvalue.trans (rounded_of_limit_le hgreat).symm, hnonneg.isNaN⟩

/-- Sums of such numbers are such numbers. -/
theorem add (hx : IsNonneg x) (hy : IsNonneg y) : IsNonneg (x + y) :=
  (hx.isRounded_add hy).isNonneg (add_nonneg hx.nonneg hy.nonneg)

/-! ### Roots -/

/-- The root of the greatest finite number is far from the limit. -/
theorem exists_isRounded_sqrt (hx : IsNonneg x) (hfinite : x.isFinite = true) {lo : ℚ}
    (hlo : lo ^ 2 ≤ value x) : ∃ q, lo ≤ q ∧ q ≤ 2 ^ (512 : ℤ) ∧ IsRounded q x.sqrt := by
  have hlimit : ((2 : ℚ) ^ (512 : ℤ)) ^ 2 = limit := by
    rw [sq, ← zpow_add₀ two_ne_zero]
    rfl
  exact Double.exists_isRounded_sqrt hfinite hx.nonneg hlo (by positivity)
    (hlimit ▸ (hx.isFinite_iff.1 hfinite).le)

/-- The root of infinity is infinity. -/
theorem unpack_sqrt (hx : IsNonneg x) (h : x.isFinite = false) :
    x.sqrt.toModel.unpack = .infinity .positive := by
  change (Float.Model.pack (UnpackedFloat.sqrt Format.binary64 x.toModel.unpack)).unpack = _
  rw [hx.unpack_eq h]
  rfl

/-- Zero is a lower bound for every root. -/
theorem zero_sq_le (hx : IsNonneg x) : (0 : ℚ) ^ 2 ≤ value x := by
  simpa using hx.nonneg

/-- Roots of such numbers are such numbers. -/
theorem sqrt (hx : IsNonneg x) : IsNonneg x.sqrt := by
  cases hfinite : x.isFinite with
  | false => exact (of_unpack_infinity (hx.unpack_sqrt hfinite)).1
  | true =>
    obtain ⟨q, hq, -, hround⟩ := hx.exists_isRounded_sqrt hfinite hx.zero_sq_le
    exact hround.isNonneg hq

/-- A root is at least what the root of a smaller number rounds to. This holds of infinite radicands
too. -/
theorem le_value_sqrt (hx : IsNonneg x) (h : q ^ 2 ≤ value x) : rounded q ≤ value x.sqrt := by
  cases hfinite : x.isFinite with
  | false =>
    rw [(of_unpack_infinity (hx.unpack_sqrt hfinite)).2]
    exact rounded_le_limit q
  | true =>
    obtain ⟨r, hr, -, hround⟩ := hx.exists_isRounded_sqrt hfinite h
    rw [hround.value_eq]
    exact rounded_mono hr

/-- And at most what the root of a greater one rounds to. -/
theorem value_sqrt_le (hx : IsNonneg x) (hfinite : x.isFinite = true) (hq : 0 ≤ q)
    (h : value x ≤ q ^ 2) : value x.sqrt ≤ rounded q := by
  obtain ⟨r, -, hr, hround⟩ :=
    Double.exists_isRounded_sqrt hfinite hx.nonneg hx.zero_sq_le hq h
  rw [hround.value_eq]
  exact rounded_mono hr

/-- A root is finite if the radicand is. -/
theorem isFinite_sqrt_iff (hx : IsNonneg x) : x.sqrt.isFinite = true ↔ x.isFinite = true := by
  constructor
  · intro h
    by_contra hinfinite
    have hvalue := (of_unpack_infinity (hx.unpack_sqrt (Bool.eq_false_iff.2 hinfinite))).2
    exact absurd (hx.sqrt.isFinite_iff.1 h) hvalue.not_lt
  · intro h
    obtain ⟨q, -, hq, hround⟩ := hx.exists_isRounded_sqrt h hx.zero_sq_le
    rw [hx.sqrt.isFinite_iff, hround.value_eq]
    calc rounded q ≤ rounded (2 ^ (512 : ℤ)) := rounded_mono hq
      _ = 2 ^ (512 : ℤ) := rounded_two_zpow (by decide) (by decide)
      _ < limit := zpow_lt_zpow_right₀ one_lt_two (by decide)

/-- A root is zero if the radicand is. No root of a positive double is so small that it vanishes. -/
theorem value_sqrt_eq_zero_iff (hx : IsNonneg x) : value x.sqrt = 0 ↔ value x = 0 := by
  constructor
  · intro h
    by_contra hne
    -- the least double above zero has a root that is a double
    have hpos : 0 < value x := lt_of_le_of_ne hx.nonneg (Ne.symm hne)
    have hleast : ((2 : ℚ) ^ (-537 : ℤ)) ^ 2 ≤ value x := by
      rw [sq, ← zpow_add₀ two_ne_zero]
      exact two_zpow_le_value hpos
    have hle := hx.le_value_sqrt hleast
    rw [h, rounded_two_zpow (by decide) (by decide)] at hle
    exact absurd hle (by positivity : (0 : ℚ) < 2 ^ (-537 : ℤ)).not_ge
  · intro h
    have hfinite : x.isFinite = true := hx.isFinite_iff.2 (h ▸ limit_pos)
    have hle := hx.value_sqrt_le hfinite le_rfl (by simp [h])
    rw [exactly_zero.rounded_eq] at hle
    exact le_antisymm hle hx.sqrt.nonneg

end IsNonneg

end Telescope.Double
