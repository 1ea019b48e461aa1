import Telescope.Proofs.DoubleOrder
import Telescope.Proofs.ExactParts
import Telescope.Random.Generator

/-!
# Numbers from a single draw

A number between `-half` and `half` is drawn by spreading a fraction, and is drawn again if rounding has
pushed it up to `half`. Spreading respects the order, so that if it happens at all, it happens to the
greatest fraction.

* `isRounded_fraction`: a fraction is a whole number of the last of its 52 places;
* `Spreads.lt`: no fraction is pushed up to `half` unless the greatest one is;
* `Spreads.exists_uniform?` and `exists_chance?`: so the first draw counts, from any place of any
  stream.

Drawing again is a loop with no bound of its own: for some intervals every draw would be rejected
and the program would not come back. `Spreads` is what an interval has to satisfy so that this
cannot happen, and it is decidable, so the intervals that the program uses are settled by
evaluation.
-/

namespace Telescope.Generator

open Double
open Float.Model (Format UnpackedFloat)
open Float.Model.UnpackedFloat

variable {half probability : Float}

/-! ## Fractions

The upper 52 bits of a draw are put behind a leading one, which makes a number from one to two, and
one is taken off again. No place is lost on the way. -/

/-- The bits of a number from one to two stand for its 52 places. The first bit is implied, and the
exponent is that of one. -/
theorem unpack_of_toNat {b : BitVec Format.binary64.numBits} {places : ℕ} (hlt : places < 2 ^ 52)
    (hbits : b.toNat = 2 ^ 52 * 1023 + places) (hpos : 0 < 2 ^ 52 + places) :
    unpack Format.binary64 b = .finite .positive (2 ^ 52 + places) (-52) hpos := by
  have hexponent : unpackExponent b = 1023#11 := by
    apply BitVec.eq_of_toNat_eq
    rw [Binary.toNat_unpackExponent, hbits]
    change (2 ^ 52 * 1023 + places) / 2 ^ 52 % 2048 = 1023
    omega
  have hsign : Sign.ofBitVec (unpackSign b) = .positive := by
    have hzero : unpackSign b = 0#1 := by
      apply BitVec.eq_of_toNat_eq
      rw [Binary.toNat_unpackSign, hbits]
      change (2 ^ 52 * 1023 + places) / 2 ^ 63 = 0
      omega
    rw [hzero]
    rfl
  have hmantissa : (1#1 ++ unpackMantissa b).toNat = 2 ^ 52 + places := by
    rw [toNat_implicit, Binary.toNat_unpackMantissa, hbits]
    change 2 ^ 52 + (2 ^ 52 * 1023 + places) % 2 ^ 52 = _
    omega
  exact (unpack_normal hsign hexponent rfl (by decide) (by decide) (by omega)).trans
    (finite_congr hmantissa rfl)

/-- The upper bits of a draw are 52 places, so nothing runs over into the exponent. -/
theorem upper_lt (x : UInt64) : x.toNat / 2 ^ 12 < 2 ^ 52 := by
  have hlt := x.toNat_lt
  omega

/-- Putting the bits of one in front of them is adding, since the fields do not overlap. -/
theorem toNat_or_shift (x : UInt64) :
    ((0x3FF0000000000000 : UInt64) ||| (x >>> 12)).toNat = 2 ^ 52 * 1023 + x.toNat / 2 ^ 12 := by
  have hshift : (x >>> 12).toNat = x.toNat / 2 ^ 12 := by
    rw [UInt64.toNat_shiftRight, Nat.shiftRight_eq_div_pow]
    rfl
  rw [UInt64.toNat_or, hshift, Nat.two_pow_add_eq_or_of_lt (upper_lt x)]
  rfl

/-- So they stand for a number from one to two. -/
theorem exactly_ofBits (x : UInt64) :
    Exactly (Float.ofBits ((0x3FF0000000000000 : UInt64) ||| (x >>> 12)))
      ((2 ^ 52 + x.toNat / 2 ^ 12 : ℕ) * 2 ^ (-52 : ℤ)) := by
  have hlt := upper_lt x
  have hpos : 0 < 2 ^ 52 + x.toNat / 2 ^ 12 := by omega
  have hunpack : (Float.ofBits ((0x3FF0000000000000 : UInt64) ||| (x >>> 12))).toModel.unpack =
      .finite .positive (2 ^ 52 + x.toNat / 2 ^ 12) (-52) hpos := by
    change (Float.Model.pack (unpack Format.binary64 _)).unpack = _
    rw [unpack_of_toNat hlt (toNat_or_shift x) hpos]
    exact unpack_pack_normal .positive ⟨by omega, by omega⟩ _ (by decide) (by decide)
  constructor
  · change UnpackedFloat.isFinite _ = true
    rw [hunpack]
    rfl
  · rw [value, hunpack]
    rfl

/-- A fraction is a whole number of the last of its 52 places. -/
theorem isRounded_fraction (x : UInt64) :
    IsRounded ((x.toNat / 2 ^ 12 : ℕ) * 2 ^ (-52 : ℤ)) (fraction x) := by
  have hbits := exactly_ofBits x
  have hone := exactly_one
  have hsub := isRounded_sub hbits.isFinite hone.isFinite
  have hplaces : (2 ^ 52 * 2 ^ (-52 : ℤ) : ℚ) = 1 := by norm_num
  rw [hbits.value_eq, hone.value_eq, Nat.cast_add, add_mul, Nat.cast_pow, Nat.cast_ofNat, hplaces,
    add_sub_cancel_left] at hsub
  exact hsub

/-- The draw with the greatest fraction. -/
def lastDraw : UInt64 := 0xFFFFFFFFFFFFFFFF

/-- A fraction is a finite number from zero on, and no greater than the one with all bits set. -/
theorem value_fraction_le (x : UInt64) :
    (fraction x).isFinite = true ∧ 0 ≤ value (fraction x) ∧
      value (fraction x) ≤ value (fraction lastDraw) := by
  have hround := isRounded_fraction x
  have hlast := isRounded_fraction lastDraw
  have hplaces : x.toNat / 2 ^ 12 ≤ lastDraw.toNat / 2 ^ 12 :=
    Nat.div_le_div_right (Nat.le_of_lt_succ x.toNat_lt)
  have hnonneg : (0 : ℚ) ≤ (x.toNat / 2 ^ 12 : ℕ) * 2 ^ (-52 : ℤ) := by positivity
  have hle : ((x.toNat / 2 ^ 12 : ℕ) * 2 ^ (-52 : ℤ) : ℚ) ≤
      (lastDraw.toNat / 2 ^ 12 : ℕ) * 2 ^ (-52 : ℤ) :=
    mul_le_mul_of_nonneg_right (Nat.cast_le.2 hplaces) (by positivity)
  have hone : ((lastDraw.toNat / 2 ^ 12 : ℕ) * 2 ^ (-52 : ℤ) : ℚ) ≤ 1 := by decide +kernel
  refine ⟨hround.isFinite exactly_one ?_, ?_, ?_⟩
  · rw [abs_of_nonneg hnonneg]
    exact hle.trans hone
  · rw [hround.value_eq]
    exact rounded_nonneg hnonneg
  · rw [hround.value_eq, hlast.value_eq]
    exact rounded_mono hle

/-! ## Spread fractions

A fraction is spread by a product and a sum, and both are rounded. Rounding respects the order, so
the greatest fraction bounds all others, and one evaluation replaces a case analysis over `2 ^ 52`
numbers. -/

/-- The interval from `-half` to `half` has a finite width, and the greatest fraction spread over it
stays below its upper end. -/
structure Spreads (half : Float) : Prop where
  /-- the width is finite -/
  isFinite : (half - -half).isFinite = true
  /-- and not negative -/
  nonneg : 0.0 <= half - -half
  /-- rounding does not push the greatest fraction up to the end -/
  last : fraction lastDraw * (half - -half) + -half < half

instance (half : Float) : Decidable (Spreads half) :=
  decidable_of_iff ((half - -half).isFinite = true ∧ 0.0 <= half - -half ∧
    fraction lastDraw * (half - -half) + -half < half)
    ⟨fun ⟨hwidth, hnonneg, hlast⟩ => ⟨hwidth, hnonneg, hlast⟩, fun h => ⟨h.1, h.2, h.3⟩⟩

namespace Spreads

/-- The width of the interval is a number from zero on. -/
theorem value_width_nonneg (h : Spreads half) : 0 ≤ value (half - -half) :=
  exactly_zero.value_eq ▸ value_le_of_le h.nonneg

/-- A part of the width is finite, being no greater than the width. -/
theorem isRounded_part (h : Spreads half) (x : UInt64) :
    IsRounded (value (fraction x) * value (half - -half)) (fraction x * (half - -half)) ∧
      (fraction x * (half - -half)).isFinite = true := by
  obtain ⟨hfinite, hpos, hle⟩ := value_fraction_le x
  have hone : value (fraction lastDraw) ≤ 1 := by with_unfolding_all decide
  have hround := isRounded_mul hfinite h.isFinite
  refine ⟨hround, hround.isFinite ⟨h.isFinite, rfl⟩ ?_⟩
  rw [abs_of_nonneg (mul_nonneg hpos h.value_width_nonneg)]
  exact mul_le_of_le_one_left h.value_width_nonneg (hle.trans hone)

/-- **No draw reaches the end of the interval** if the greatest one does not. Spreading rounds
twice, and respects the order each time. -/
protected theorem lt (h : Spreads half) (x : UInt64) :
    fraction x * (half - -half) + -half < half := by
  obtain ⟨hhalf, hlow⟩ := isFinite_of_sub h.isFinite
  obtain ⟨hpart, hfinite⟩ := h.isRounded_part x
  obtain ⟨hpartLast, hfiniteLast⟩ := h.isRounded_part lastDraw
  have hsum := isRounded_add hfinite hlow
  have hsumLast := isRounded_add hfiniteLast hlow
  have hlast := h.last
  rw [lt_iff_value hsumLast.isNaN (isNaN_of_isFinite hhalf)] at hlast
  rw [lt_iff_value hsum.isNaN (isNaN_of_isFinite hhalf)]
  refine lt_of_le_of_lt ?_ hlast
  have hle : value (fraction x * (half - -half)) ≤ value (fraction lastDraw * (half - -half)) := by
    rw [hpart.value_eq, hpartLast.value_eq]
    exact rounded_mono (mul_le_mul_of_nonneg_right (value_fraction_le x).2.2 h.value_width_nonneg)
  rw [hsum.value_eq, hsumLast.value_eq]
  exact rounded_mono (add_le_add_left hle _)

/-- So the first draw counts, and the loop ends in its first round. -/
theorem exists_uniform? (h : Spreads half) (g : Generator) :
    ∃ drawn, g.uniform? half = some drawn := by
  have hfirst : ∀ tries, ∃ drawn, below? half (tries + 1) g = some drawn := fun tries =>
    ⟨(fraction g.draw.1 * (half - -half) + -half, g.draw.2), if_pos (h.lt g.draw.1)⟩
  obtain ⟨tries, htries⟩ : ∃ tries, period = tries + 1 :=
    Nat.exists_eq_succ_of_ne_zero (by decide)
  rw [uniform?, if_pos h.isFinite, htries]
  exact hfirst tries

end Spreads

/-! ## Decisions

A decision is one draw that is compared with a probability. Only a probability outside its range
leaves it open. -/

/-- A probability decides, from any place of any stream. -/
theorem exists_chance? (hlow : 0.0 <= probability) (hhigh : probability <= 1.0) (g : Generator) :
    ∃ decision, g.chance? probability = some decision := by
  unfold chance?
  split
  · exact ⟨_, rfl⟩
  · next hone =>
    have hlt : probability < 1.0 := by
      by_contra hge
      obtain ⟨hnumber, hnumber'⟩ := isNaN_of_le hhigh
      exact hone (beq_of_le_of_le hhigh (le_of_not_lt hnumber hnumber' hge))
    rw [if_pos (by rw [decide_eq_true hlow, decide_eq_true hlt]; rfl)]
    exact ⟨_, rfl⟩

end Telescope.Generator
