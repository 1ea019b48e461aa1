import Telescope.Proofs.Quotients
import Telescope.Proofs.Rounding

/-!
# The arithmetic of doubles

Sums, differences, products and quotients of finite doubles are the exact results, rounded once.

* `exactValue` is the number that the parts of a double stand for; infinities stand at `limit`, where
  the doubles end, so that the values of all doubles but NaN are in order;
* `Approximates` is what a mantissa with its two residual bits says about a number, and
  `isNearest_roundWithAccuracy` what rounding makes of it;
* `isNearest_sub`, `isNearest_mul` and `isNearest_div` are the operations;
* `isRounded_pack` adds the overflow: the value of a result is `rounded`, the nearest number of 53 bits,
  held within the limits.
-/

namespace Telescope.Double

open Float.Model (Format UnpackedFloat totalExponent)
open Float.Model.UnpackedFloat

/-! ## Values -/

/-- A number with a sign put in front. -/
def signed : Sign → ℚ → ℚ
  | .positive, q => q
  | .negative, q => -q

/-- The first power of two that is too great for a double. -/
def limit : ℚ := 2 ^ (1024 : ℤ)

/-- The number that the parts of a double stand for. NaN is given none, and infinities the limit. -/
def exactValue : UnpackedFloat → ℚ
  | .finite s m e _ => signed s (m * 2 ^ e)
  | .zero _ => 0
  | .infinity s => signed s limit
  | .notANumber => 0

/-- The number that a double stands for. -/
def value (x : Float) : ℚ := exactValue x.toModel.unpack

/-- Both zeros stand for the same number. -/
theorem exactValue_zero (s : Sign) : exactValue (.zero s) = 0 := rfl

/-- A sign on a mantissa is a sign on the number. -/
theorem signed_apply (s : Sign) (m : Nat) (q : ℚ) : ((s.apply m : ℤ) : ℚ) * q = signed s (m * q) := by
  cases s with
  | positive => exact congrArg (· * q) (Int.cast_natCast m)
  | negative =>
    change ((-(m : ℤ) : ℤ) : ℚ) * q = -(m * q)
    rw [Int.cast_neg, Int.cast_natCast, neg_mul]

/-- Signs are multiplied as the numbers are, so products can be looked at without signs. -/
theorem signed_mul_signed (s t : Sign) (q r : ℚ) :
    signed (s * t) (q * r) = signed s q * signed t r := by
  cases s <;> cases t
  · exact (neg_mul_neg q r).symm
  · exact (neg_mul q r).symm
  · exact (mul_neg q r).symm
  · rfl

/-- The same for quotients. -/
theorem signed_div_signed (s t : Sign) (q r : ℚ) :
    signed (s / t) (q / r) = signed s q / signed t r := by
  cases s <;> cases t
  · exact (neg_div_neg_eq q r).symm
  · exact (neg_div r q).symm
  · exact (div_neg q).symm
  · rfl

/-- Rounding knows no sign either. -/
theorem nearest_signed (s : Sign) (q : ℚ) : nearest (signed s q) = signed s (nearest q) := by
  cases s with
  | positive => rfl
  | negative => exact nearest_neg q

/-! ## Residual bits

The operations keep the bits that do not fit in two: the first that is left out, and whether
anything follows it. A mantissa with these two bits stands for a number between two whole ones, and
`Approximates` says for which. Shifting keeps the relation, so it holds from the exact result down
to the place where the rounding looks at it. -/

/-- What a mantissa with its two residual bits says about a number: it is the whole part, and the bits
compare the rest with a half. -/
def Approximates : ExtendedMantissa → ℚ → Prop
  | ⟨m, false, false⟩, q => q = m
  | ⟨m, false, true⟩, q => m < q ∧ q < m + 1 / 2
  | ⟨m, true, false⟩, q => q = m + 1 / 2
  | ⟨m, true, true⟩, q => m + 1 / 2 < q ∧ q < m + 1

variable {em : ExtendedMantissa} {q r x : ℚ} {m : Nat} {e : ℤ}

/-- The number is at the mantissa or behind it, and before the next one. -/
theorem Approximates.bounds (h : Approximates em q) : em.mantissa ≤ q ∧ q < em.mantissa + 1 := by
  unfold Approximates at h
  split at h <;> constructor <;> linarith

/-- So the mantissa is its whole part. -/
theorem Approximates.floor (h : Approximates em q) : ⌊q⌋ = em.mantissa := by
  rw [Int.floor_eq_iff]
  exact_mod_cast h.bounds

/-- The two bits are about the rest behind the whole part. -/
theorem Approximates.fract (h : Approximates em q) : Int.fract q = q - em.mantissa := by
  rw [Int.fract, h.floor, Int.cast_natCast]

/-- The two bits are all that rounding needs: they tell on which side of a half the rest lies, or
that it is one. -/
theorem Approximates.roundedMantissa (h : Approximates em q) :
    (em.roundedMantissa : ℤ) = roundEven q := by
  have hfloor := h.floor
  have hfract := h.fract
  obtain ⟨m, _ | _, _ | _⟩ := em
  · obtain rfl : q = m := h
    exact (roundEven_intCast m).symm
  · obtain ⟨-, hlt⟩ : m < q ∧ q < m + 1 / 2 := h
    rw [roundEven_of_fract_lt (by rw [hfract]; linarith), hfloor]
    rfl
  · have heq : q = m + 1 / 2 := h
    rw [roundEven_of_fract_eq (by rw [hfract, heq]; exact add_sub_cancel_left _ _), hfloor]
    rfl
  · obtain ⟨hlt, -⟩ : m + 1 / 2 < q ∧ q < m + 1 := h
    rw [roundEven_of_lt_fract (by rw [hfract]; linarith), hfloor]
    rfl

/-- The bit that is shifted out becomes the round bit, and what was behind it is remembered. -/
theorem Approximates.shiftRightOne (h : Approximates em q) :
    Approximates em.shiftRightOne (q / 2) := by
  have hparity : (em.mantissa : ℚ) = 2 * (em.mantissa / 2 : ℕ) + (em.mantissa % 2 : ℕ) := by
    exact_mod_cast (Nat.div_add_mod em.mantissa 2).symm
  obtain ⟨m, roundBit, stickyBit⟩ := em
  dsimp only at hparity
  obtain heven | hodd := Nat.mod_two_eq_zero_or_one m
  · rw [heven, Nat.cast_zero, add_zero] at hparity
    have hshift : ExtendedMantissa.shiftRightOne ⟨m, roundBit, stickyBit⟩ =
        ⟨m / 2, false, roundBit || stickyBit⟩ := by
      simp [ExtendedMantissa.shiftRightOne, heven]
    rw [hshift]
    cases roundBit <;> cases stickyBit <;>
      simp only [Approximates, Bool.or_false, Bool.or_true] at h ⊢
    · linarith
    all_goals constructor <;> linarith
  · rw [hodd, Nat.cast_one] at hparity
    have hshift : ExtendedMantissa.shiftRightOne ⟨m, roundBit, stickyBit⟩ =
        ⟨m / 2, true, roundBit || stickyBit⟩ := by
      simp [ExtendedMantissa.shiftRightOne, hodd]
    rw [hshift]
    cases roundBit <;> cases stickyBit <;>
      simp only [Approximates, Bool.or_false, Bool.or_true] at h ⊢
    · linarith
    all_goals constructor <;> linarith

/-- The same for several places at once. -/
theorem Approximates.shiftRight (h : Approximates em q) (n : ℕ) :
    Approximates (em >>> n) (q / 2 ^ n) := by
  induction n with
  | zero =>
    rw [pow_zero, div_one]
    exact h
  | succ n ih =>
    have hlast := ih.shiftRightOne
    rw [div_div, ← pow_succ] at hlast
    exact hlast

/-- A mantissa without a rest. -/
theorem approximates_exact (m : ℕ) :
    Approximates (ExtendedMantissa.ofMantissaAndAccuracy m .exact) m :=
  rfl

/-- A quotient of whole numbers, with what its rest says. The rest is compared with half the
denominator, so nothing is lost by stopping at a whole quotient. -/
theorem approximates_quotient (num : ℕ) {den : ℕ} (hden : 0 < den) :
    Approximates (ExtendedMantissa.ofMantissaAndAccuracy (num / den)
      (accuracyOfFraction (num % den) den)) (num / den) := by
  obtain ⟨rest, hrest⟩ : ∃ rest, num % den = rest := ⟨_, rfl⟩
  have hpos : (0 : ℚ) < den := by exact_mod_cast hden
  have hlt : (rest : ℚ) < den := by exact_mod_cast hrest ▸ Nat.mod_lt num hden
  have hquotient : (num : ℚ) / den = (num / den : ℕ) + rest / den := by
    have hsplit : (num : ℚ) = den * (num / den : ℕ) + rest := by
      exact_mod_cast (hrest ▸ Nat.div_add_mod num den).symm
    rw [div_eq_iff hpos.ne', add_mul, div_mul_cancel₀ _ hpos.ne', mul_comm]
    exact hsplit
  rw [hrest, hquotient]
  unfold accuracyOfFraction
  by_cases hzero : rest = 0
  · rw [if_pos hzero, hzero, Nat.cast_zero, zero_div, add_zero]
    exact approximates_exact _
  · have hrestPos : (0 : ℚ) < rest / den := div_pos (by exact_mod_cast Nat.pos_of_ne_zero hzero) hpos
    have hrestLt : (rest : ℚ) / den < 1 := (div_lt_one hpos).2 hlt
    rw [if_neg hzero]
    obtain hhalf | hhalf | hhalf := Nat.lt_trichotomy (2 * rest) den
    · have hbelow : (rest : ℚ) / den < 1 / 2 := by
        rw [div_lt_div_iff₀ hpos two_pos]
        exact_mod_cast (by omega : rest * 2 < 1 * den)
      rw [Nat.compare_eq_lt.2 hhalf]
      exact ⟨by linarith, by linarith⟩
    · have hmiddle : (rest : ℚ) / den = 1 / 2 := by
        rw [div_eq_div_iff hpos.ne' two_ne_zero]
        exact_mod_cast (by omega : rest * 2 = 1 * den)
      rw [Nat.compare_eq_eq.2 hhalf, hmiddle]
      rfl
    · have habove : 1 / 2 < (rest : ℚ) / den := by
        rw [div_lt_div_iff₀ two_pos hpos]
        exact_mod_cast (by omega : 1 * den < rest * 2)
      rw [Nat.compare_eq_gt.2 hhalf]
      exact ⟨by linarith, by linarith⟩

/-! ## Rounding

The format is asked for the exponent of the result before anything is rounded. It is the exponent of
the last place of the exact number, whatever the operation has left out so far
(`targetExponent_eq_lastPlace`); this is why the operations may round what they have computed and
not what is exact. -/

/-- Where a whole multiple of a power of two begins, in powers of two. -/
theorem two_zpow_le_mul (hm : 0 < m) (e : ℤ) : (2 : ℚ) ^ (m.log2 + e) ≤ m * 2 ^ e := by
  have hleast := ((Nat.log2_eq_iff (Nat.ne_of_gt hm)).1 (rfl : m.log2 = m.log2)).1
  rw [zpow_add₀ two_ne_zero, zpow_natCast]
  exact mul_le_mul_of_nonneg_right (by exact_mod_cast hleast) (by positivity)

/-- And where it ends. -/
theorem succ_mul_le_two_zpow (hm : 0 < m) (e : ℤ) :
    ((m + 1) * 2 ^ e : ℚ) ≤ 2 ^ (m.log2 + e + 1) := by
  have hmost := ((Nat.log2_eq_iff (Nat.ne_of_gt hm)).1 (rfl : m.log2 = m.log2)).2
  rw [add_right_comm, zpow_add₀ two_ne_zero]
  refine mul_le_mul_of_nonneg_right ?_ (by positivity)
  exact_mod_cast hmost

/-- So its logarithm is that of the mantissa, shifted. -/
theorem log_eq_log2_add (hm : 0 < m) (hlow : m * 2 ^ e ≤ q) (hhigh : q < (m + 1) * 2 ^ e) :
    Int.log 2 q = m.log2 + e := by
  have hq : 0 < q := lt_of_lt_of_le (by positivity) hlow
  have hbelow : ((2 : ℕ) : ℚ) ^ (m.log2 + e) ≤ q := (two_zpow_le_mul hm e).trans hlow
  have habove : q < ((2 : ℕ) : ℚ) ^ (m.log2 + e + 1) := hhigh.trans_le (succ_mul_le_two_zpow hm e)
  have hle := (Int.zpow_le_iff_le_log (by norm_num) hq).1 hbelow
  have hlt := (Int.lt_zpow_iff_log_lt (by norm_num) hq).1 habove
  omega

/-- The exponent that rounding aims at is that of the last place, whatever the mantissa leaves out. -/
theorem targetExponent_eq_lastPlace (hq : 0 < q) (hlow : m * 2 ^ e ≤ q) (hhigh : q < (m + 1) * 2 ^ e)
    (he : e ≤ lastPlace q) : Format.binary64.targetExponent (totalExponent m e) = lastPlace q := by
  rw [targetExponent_eq, totalExponent]
  unfold lastPlace at he ⊢
  rw [abs_of_pos hq] at he ⊢
  obtain rfl | hm := Nat.eq_zero_or_pos m
  · have hlt : Int.log 2 q < e := by
      rw [← Int.lt_zpow_iff_log_lt (by norm_num) hq]
      simpa using hhigh
    have hzero : Nat.log2 0 = 0 := by decide
    omega
  · have hlog := log_eq_log2_add hm hlow hhigh
    omega

/-- The number, rounded to 53 bits. Its exponent may still be too great for a double. -/
structure IsNearest (q : ℚ) (r : UnpackedFloat) : Prop where
  /-- it is neither infinite nor NaN -/
  finite : r.isFinite = true
  /-- its exponent is the one that numbers of this size have -/
  canonical : Canonical r
  /-- it is the nearest one -/
  value : exactValue r = nearest q

/-- Rounding can carry into a 54th bit. The second shift takes it off again, and otherwise does
nothing. -/
theorem exists_shift_carry {k : ℕ} {t : ℤ} (hk : 0 < k) (hle : k ≤ 2 ^ 53) (ht : -1074 ≤ t)
    (hfull : -1074 < t → 2 ^ 52 ≤ k) :
    ∃ em t', shiftToTargetExponent Format.binary64 k t .exact = (em, t') ∧ 0 < em.mantissa ∧
      (em.mantissa : ℚ) * 2 ^ t' = k * 2 ^ t ∧
      Format.binary64.targetExponent (totalExponent em.mantissa t') = t' := by
  unfold shiftToTargetExponent shiftToExponent
  obtain hlt | rfl := Nat.lt_or_eq_of_le hle
  · have hlog : k.log2 < 53 := (Nat.log2_lt hk.ne').2 hlt
    have hlog' : -1074 < t → 52 ≤ k.log2 := fun h => (Nat.le_log2 hk.ne').2 (hfull h)
    have htarget : Format.binary64.targetExponent (totalExponent k t) = t := by
      rw [targetExponent_eq, totalExponent]
      omega
    have hamount : (t - t).toNat = 0 := by omega
    rw [htarget]
    dsimp only
    rw [hamount]
    rw [Nat.cast_zero, add_zero]
    exact ⟨_, _, rfl, hk, rfl, htarget⟩
  · -- rounding has carried into one bit more, which is zero and dropped
    have hlog : Nat.log2 (2 ^ 53) = 53 := Nat.log2_two_pow
    have hlog' : Nat.log2 (2 ^ 52) = 52 := Nat.log2_two_pow
    have htarget : Format.binary64.targetExponent (totalExponent (2 ^ 53) t) = t + 1 := by
      rw [targetExponent_eq, totalExponent, hlog]
      omega
    have hamount : (t + 1 - t).toNat = 1 := by omega
    have hhalf : (ExtendedMantissa.ofMantissaAndAccuracy (2 ^ 53) .exact >>> 1).mantissa = 2 ^ 52 := rfl
    rw [htarget]
    dsimp only
    rw [hamount]
    refine ⟨_, _, rfl, by rw [hhalf]; decide, ?_, ?_⟩
    · rw [hhalf, Nat.cast_one, zpow_add_one₀ two_ne_zero]
      push_cast
      ring
    · rw [hhalf, targetExponent_eq, totalExponent, hlog']
      omega

/-- **Rounding makes the nearest number of 53 bits.** This is the one place where the rounding of
the format is opened: the operations below only have to show that what they hand over approximates
the exact result. -/
theorem isNearest_roundWithAccuracy (s : Sign) {accuracy : Accuracy}
    (happrox : Approximates (ExtendedMantissa.ofMantissaAndAccuracy m accuracy) x)
    (hq : q = x * 2 ^ e) (hpos : 0 < q) (he : e ≤ lastPlace q) :
    IsNearest (signed s q) (roundWithAccuracy Format.binary64 s m e accuracy) := by
  obtain ⟨shift, hshift⟩ : ∃ shift : ℕ, lastPlace q = e + shift :=
    ⟨(lastPlace q - e).toNat, by omega⟩
  obtain ⟨hlow, hhigh⟩ := happrox.bounds
  rw [mantissa_ofMantissaAndAccuracy] at hlow hhigh
  have htarget : Format.binary64.targetExponent (totalExponent m e) = lastPlace q :=
    targetExponent_eq_lastPlace hpos (hq ▸ mul_le_mul_of_nonneg_right hlow (by positivity))
      (hq ▸ mul_lt_mul_of_pos_right hhigh (by positivity)) he
  -- the first shift leaves the bits in front of the last place
  let first := ExtendedMantissa.ofMantissaAndAccuracy m accuracy >>> shift
  have hfirst : shiftToTargetExponent Format.binary64 m e accuracy = (first, lastPlace q) := by
    have hamount : (lastPlace q - e).toNat = shift := by omega
    rw [shiftToTargetExponent, htarget, shiftToExponent, hamount, ← hshift]
  have hquotient : x / 2 ^ shift = q / 2 ^ lastPlace q := by
    rw [hshift, zpow_add₀ two_ne_zero, zpow_natCast, hq, mul_comm x,
      mul_div_mul_left _ _ (by positivity)]
  have hround : (first.roundedMantissa : ℤ) = roundEven (q / 2 ^ lastPlace q) :=
    hquotient ▸ (happrox.shiftRight shift).roundedMantissa
  have hvalue : nearest q = first.roundedMantissa * 2 ^ lastPlace q := by
    rw [nearest, ← hround, Int.cast_natCast]
  have hleast : -1074 ≤ lastPlace q := le_max_right _ _
  obtain hzero | hk := Nat.eq_zero_or_pos first.roundedMantissa
  · have hresult : roundWithAccuracy Format.binary64 s m e accuracy = .zero s := by
      have hmantissa :
          (shiftToTargetExponent Format.binary64 0 (lastPlace q) .exact).1.mantissa = 0 := by
        rw [shiftToTargetExponent, shiftToExponent, mantissa_shiftRight, mantissa_ofMantissaAndAccuracy,
          Nat.zero_div]
      unfold roundWithAccuracy
      rw [hfirst]
      dsimp only
      rw [hzero, dif_pos hmantissa]
    rw [hresult]
    refine ⟨rfl, trivial, ?_⟩
    rw [nearest_signed, hvalue, hzero, Nat.cast_zero, zero_mul]
    cases s <;> rfl
  · have hle : first.roundedMantissa ≤ 2 ^ 53 := by
      exact_mod_cast hround.trans_le (roundEven_le_of_lt (div_lastPlace_lt hpos))
    have hfull : -1074 < lastPlace q → 2 ^ 52 ≤ first.roundedMantissa := fun h => by
      exact_mod_cast (le_roundEven_of_le (le_div_lastPlace hpos h)).trans_eq hround.symm
    obtain ⟨second, t, hsecond, hmantissa, hsame, hcanonical⟩ := exists_shift_carry hk hle hleast hfull
    rw [roundWithAccuracy_eq hfirst hsecond rfl hmantissa]
    refine ⟨rfl, hcanonical, ?_⟩
    rw [nearest_signed, hvalue, ← hsame]
    rfl

/-- A number with enough places behind its last bit is rounded like any other. The places are made
by shifting the mantissa, which does not change the number. -/
theorem isNearest_round (s : Sign) (hm : 0 < m) (e : ℤ) :
    IsNearest (signed s (m * 2 ^ e)) (UnpackedFloat.round Format.binary64 s m e) := by
  have hpos : (0 : ℚ) < m * 2 ^ e := by positivity
  have hlog : Int.log 2 ((m : ℚ) * 2 ^ e) = m.log2 + e :=
    log_eq_log2_add hm le_rfl (mul_lt_mul_of_pos_right (lt_add_one _) (by positivity))
  have htarget : Format.binary64.targetExponent (totalExponent m e) = lastPlace (m * 2 ^ e) := by
    rw [targetExponent_eq, totalExponent, lastPlace, abs_of_pos hpos, hlog]
    omega
  obtain ⟨shift, hshift⟩ : ∃ shift, (e - lastPlace (m * 2 ^ e)).toNat = shift := ⟨_, rfl⟩
  unfold UnpackedFloat.round decreaseExponent
  rw [htarget]
  dsimp only
  rw [hshift]
  refine isNearest_roundWithAccuracy s (approximates_exact _) ?_ hpos (by omega)
  rw [Nat.shiftLeft_eq, zpow_sub₀ two_ne_zero, zpow_natCast]
  push_cast
  field_simp

/-- Zero is exact. -/
theorem isNearest_zero (s : Sign) : IsNearest 0 (.zero s) :=
  ⟨rfl, trivial, nearest_zero.symm⟩

/-- A whole multiple of a power of two is made a double by rounding it. -/
theorem isNearest_normalize (k e : ℤ) (s : Sign) :
    IsNearest (k * 2 ^ e) (UnpackedFloat.normalize Format.binary64 k e s) := by
  unfold UnpackedFloat.normalize
  obtain hneg | rfl | hpos := lt_trichotomy k 0
  · have hnat : ((-k).toNat : ℚ) = -k := by
      exact_mod_cast Int.toNat_of_nonneg (by omega : 0 ≤ -k)
    have hround := isNearest_round .negative (m := (-k).toNat) (by omega) e
    rw [Int.compare_eq_lt.2 hneg]
    simpa [signed, hnat] using hround
  · rw [Int.cast_zero, zero_mul]
    exact isNearest_zero s
  · have hnat : (k.toNat : ℚ) = k := by
      exact_mod_cast Int.toNat_of_nonneg hpos.le
    have hround := isNearest_round .positive (m := k.toNat) (by omega) e
    rw [Int.compare_eq_gt.2 hpos]
    simpa [signed, hnat] using hround

/-! ## Operations

Each operation computes whole numbers and their exponents, and hands them to `round` or
`roundWithAccuracy`. What has to be shown is where the exact result lies between whole multiples,
and that no bit that matters was lost before. -/

/-- Canonical exponents are those of doubles from the least one on. -/
theorem least_le_of_canonical {s : Sign} {hm : 0 < m} (h : Canonical (.finite s m e hm)) :
    -1074 ≤ e := by
  rw [← h, targetExponent_eq]
  exact le_max_right _ _

/-- A double is its own nearest double. This settles the sums and products in which one operand is
zero. -/
theorem isNearest_self {a : UnpackedFloat} (hfinite : a.isFinite = true) (ha : Canonical a) :
    IsNearest (exactValue a) a := by
  refine ⟨hfinite, ha, ?_⟩
  cases a with
  | zero s => exact nearest_zero.symm
  | infinity s => exact nomatch hfinite
  | notANumber => exact nomatch hfinite
  | finite s m e hm =>
    have hbits : |(m : ℤ)| < 2 ^ 53 := by
      rw [abs_of_nonneg (by omega)]
      exact_mod_cast (mantissa_of_canonical ha).1
    have hsame : nearest ((m : ℤ) * 2 ^ e) = (m : ℤ) * 2 ^ e :=
      nearest_of_multiple rfl hbits (least_le_of_canonical ha)
    rw [Int.cast_natCast] at hsame
    rw [exactValue, nearest_signed, hsame]

/-- The same number with a smaller exponent. -/
theorem decreaseExponent_eq {t : ℤ} (h : t ≤ e) :
    ((decreaseExponent m e t).1 : ℚ) * 2 ^ t = m * 2 ^ e := by
  obtain ⟨shift, hshift⟩ : ∃ shift : ℕ, e = t + shift := ⟨(e - t).toNat, by omega⟩
  have hamount : (e - t).toNat = shift := by omega
  unfold decreaseExponent
  dsimp only
  rw [hamount, Nat.shiftLeft_eq, hshift, zpow_add₀ two_ne_zero, zpow_natCast]
  push_cast
  ring

variable {a b : UnpackedFloat}

/-- Sums are rounded once: with a common exponent the mantissas are added exactly. -/
theorem isNearest_add (ha : a.isFinite = true) (hb : b.isFinite = true) (ha' : Canonical a)
    (hb' : Canonical b) :
    IsNearest (exactValue a + exactValue b) (UnpackedFloat.add Format.binary64 a b) := by
  cases a with
  | infinity s => exact nomatch ha
  | notANumber => exact nomatch ha
  | zero s =>
    cases b with
    | infinity t => exact nomatch hb
    | notANumber => exact nomatch hb
    | zero t =>
      rw [exactValue_zero, exactValue_zero, add_zero, UnpackedFloat.add]
      split
      · exact isNearest_zero s
      · exact isNearest_zero .positive
    | finite t k d hk =>
      rw [exactValue_zero, zero_add]
      exact isNearest_self hb hb'
  | finite s m e hm =>
    cases b with
    | infinity t => exact nomatch hb
    | notANumber => exact nomatch hb
    | zero t =>
      rw [exactValue_zero, add_zero]
      exact isNearest_self ha ha'
    | finite t k d hk =>
      -- both are taken to the smaller exponent, where they are added as whole numbers
      have hsum := isNearest_normalize (s.apply (decreaseExponent m e (min e d)).1 +
        t.apply (decreaseExponent k d (min e d)).1) (min e d) .positive
      rw [Int.cast_add, add_mul, signed_apply, signed_apply, decreaseExponent_eq (min_le_left e d),
        decreaseExponent_eq (min_le_right e d)] at hsum
      exact hsum

/-- The negative stands for the negative number. -/
theorem exactValue_neg (a : UnpackedFloat) : exactValue a.neg = -exactValue a := by
  cases a with
  | notANumber => exact neg_zero.symm
  | zero s => exact neg_zero.symm
  | infinity s => cases s with
    | positive => rfl
    | negative => exact (neg_neg limit).symm
  | finite s m e hm => cases s with
    | positive => rfl
    | negative => exact (neg_neg ((m : ℚ) * 2 ^ e)).symm

/-- A difference is the sum with the negative. -/
theorem unpacked_sub_eq (a b : UnpackedFloat) :
    UnpackedFloat.sub Format.binary64 a b = UnpackedFloat.add Format.binary64 a b.neg := by
  cases a <;> cases b
  case finite.finite s m e hm t k d hk =>
    have happly : ∀ x y : ℕ, s.apply x - t.apply y = s.apply x + (-t).apply y := by
      intro x y
      cases t with
      | positive => exact Int.sub_eq_add_neg
      | negative => exact sub_neg_eq_add _ _
    exact congrArg (UnpackedFloat.normalize Format.binary64 · (min e d) .positive) (happly _ _)
  all_goals rfl

/-- So differences are rounded once as well. -/
theorem isNearest_sub (ha : a.isFinite = true) (hb : b.isFinite = true) (ha' : Canonical a)
    (hb' : Canonical b) :
    IsNearest (exactValue a - exactValue b) (UnpackedFloat.sub Format.binary64 a b) := by
  have hneg : b.neg.isFinite = true ∧ Canonical b.neg := by
    cases b with
    | infinity t => exact nomatch hb
    | notANumber => exact nomatch hb
    | zero t => exact ⟨rfl, trivial⟩
    | finite t k d hk => exact ⟨rfl, hb'⟩
  have hsum := isNearest_add ha hneg.1 ha' hneg.2
  rwa [exactValue_neg, ← sub_eq_add_neg, ← unpacked_sub_eq] at hsum

/-- A product with all bits of a double, or none beyond the last place, is rounded like any other. -/
theorem isNearest_mul_finite (s t : Sign) {k : Nat} {d : ℤ} (hm : 0 < m) (hk : 0 < k)
    (hbits : 52 ≤ (m * k).log2 ∨ e + d ≤ -1074) :
    IsNearest (signed s (m * 2 ^ e) * signed t (k * 2 ^ d))
      (UnpackedFloat.mul Format.binary64 (.finite s m e hm) (.finite t k d hk)) := by
  have hproduct : 0 < m * k := Nat.mul_pos hm hk
  have hvalue : (m * 2 ^ e * (k * 2 ^ d) : ℚ) = (m * k : ℕ) * 2 ^ (e + d) := by
    rw [zpow_add₀ two_ne_zero, Nat.cast_mul]
    ring
  have hpos : (0 : ℚ) < (m * k : ℕ) * 2 ^ (e + d) := by positivity
  have hlog : Int.log 2 (((m * k : ℕ) : ℚ) * 2 ^ (e + d)) = (m * k).log2 + (e + d) :=
    log_eq_log2_add hproduct le_rfl (mul_lt_mul_of_pos_right (lt_add_one _) (by positivity))
  have hplace : e + d ≤ lastPlace ((m * k : ℕ) * 2 ^ (e + d)) := by
    rw [lastPlace, abs_of_pos hpos, hlog]
    omega
  rw [← signed_mul_signed, hvalue]
  exact isNearest_roundWithAccuracy (s * t) (approximates_exact _) rfl hpos hplace

/-- Products are rounded once. A product of normal mantissas has enough bits; one of smaller
mantissas is so small that its last place is the least there is. -/
theorem isNearest_mul (ha : a.isFinite = true) (hb : b.isFinite = true) (ha' : Canonical a)
    (hb' : Canonical b) :
    IsNearest (exactValue a * exactValue b) (UnpackedFloat.mul Format.binary64 a b) := by
  cases a with
  | infinity s => exact nomatch ha
  | notANumber => exact nomatch ha
  | zero s =>
    rw [exactValue_zero, zero_mul]
    cases b with
    | infinity t => exact nomatch hb
    | notANumber => exact nomatch hb
    | zero t => exact isNearest_zero _
    | finite t k d hk => exact isNearest_zero _
  | finite s m e hm =>
    cases b with
    | infinity t => exact nomatch hb
    | notANumber => exact nomatch hb
    | zero t =>
      rw [exactValue_zero, mul_zero]
      exact isNearest_zero _
    | finite t k d hk =>
      apply isNearest_mul_finite
      -- two numbers below the normal ones have an exponent far below the least one
      have hm' := (mantissa_of_canonical ha').2
      have hk' := (mantissa_of_canonical hb').2
      have hfull : 2 ^ 52 ≤ m ∨ 2 ^ 52 ≤ k → 52 ≤ (m * k).log2 := by
        rw [Nat.le_log2 (Nat.mul_pos hm hk).ne']
        rintro (h | h)
        · exact h.trans (Nat.le_mul_of_pos_right m hk)
        · exact h.trans (Nat.le_mul_of_pos_left k hm)
      omega

/-- The bits of a number in front of its point. -/
theorem two_zpow_totalExponent (hm : 0 < m) (e : ℤ) :
    (2 : ℚ) ^ (totalExponent m e - 1) ≤ m * 2 ^ e ∧ (m * 2 ^ e : ℚ) < 2 ^ totalExponent m e := by
  have hlow : totalExponent m e - 1 = m.log2 + e := by
    unfold totalExponent
    omega
  have hhigh : totalExponent m e = m.log2 + e + 1 := by
    unfold totalExponent
    omega
  rw [hlow, hhigh]
  exact ⟨two_zpow_le_mul hm e,
    (mul_lt_mul_of_pos_right (lt_add_one _) (by positivity)).trans_le (succ_mul_le_two_zpow hm e)⟩

/-- Quotients are rounded once: the rest of the division is what the two residual bits are made
from. -/
theorem isNearest_div (ha : a.isFinite = true) (hb : b.isFinite = true) (hne : exactValue b ≠ 0) :
    IsNearest (exactValue a / exactValue b) (UnpackedFloat.div Format.binary64 a b) := by
  cases b with
  | infinity t => exact nomatch hb
  | notANumber => exact nomatch hb
  | zero t => exact absurd (exactValue_zero t) hne
  | finite t k d hk =>
    cases a with
    | infinity s => exact nomatch ha
    | notANumber => exact nomatch ha
    | zero s =>
      rw [exactValue_zero, zero_div]
      exact isNearest_zero _
    | finite s m e hm =>
      obtain ⟨target, htarget⟩ : ∃ target, min (e - d) (Format.binary64.targetExponent
          (totalExponent m e - totalExponent k d)) = target := ⟨_, rfl⟩
      obtain ⟨shift, hshift⟩ : ∃ shift : ℕ, e = target + d + shift :=
        ⟨(e - d - target).toNat, by omega⟩
      have hamount : (e - d - target).toNat = shift := by omega
      have hvalue : (m * 2 ^ e / (k * 2 ^ d) : ℚ) = (m <<< shift : ℕ) / k * 2 ^ target := by
        rw [Nat.shiftLeft_eq, hshift, zpow_add₀ two_ne_zero, zpow_add₀ two_ne_zero, zpow_natCast]
        push_cast
        field_simp
      have hpos : (0 : ℚ) < m * 2 ^ e / (k * 2 ^ d) := by positivity
      -- there are so many bits that the quotient has 53 of them
      have hplace : target ≤ lastPlace (m * 2 ^ e / (k * 2 ^ d)) := by
        have hlow : (2 : ℚ) ^ (totalExponent m e - 1 - totalExponent k d) ≤
            m * 2 ^ e / (k * 2 ^ d) := by
          rw [zpow_sub₀ two_ne_zero]
          exact div_le_div₀ (by positivity) (two_zpow_totalExponent hm e).1 (by positivity)
            (two_zpow_totalExponent hk d).2.le
        have hlog := (Int.zpow_le_iff_le_log (b := 2) (by norm_num) hpos).1 (by exact_mod_cast hlow)
        rw [targetExponent_eq] at htarget
        rw [lastPlace, abs_of_pos hpos]
        omega
      have hdiv : UnpackedFloat.div Format.binary64 (.finite s m e hm) (.finite t k d hk) =
          roundWithAccuracy Format.binary64 (s / t) ((m <<< shift) / k) target
            (accuracyOfFraction ((m <<< shift) % k) k) := by
        unfold UnpackedFloat.div divCore
        dsimp only
        rw [htarget, hamount]
      rw [exactValue, exactValue, ← signed_div_signed, hdiv]
      exact isNearest_roundWithAccuracy (s / t) (approximates_quotient _ hk) hvalue hpos hplace

/-! ## Overflow

So far exponents had no upper end. Packing gives them one: what is at `limit` or beyond becomes
infinite. With infinities standing at the limit, packing is `rounded`, the nearest number cut off at
the two ends, which respects the order like `nearest` does. Later modules see this and never the
parts of a double. -/

/-- What the bits of a number below the normal ones stand for. -/
theorem unpack_subnormal {b : BitVec Format.binary64.numBits} {s : Sign} {mantissa : BitVec 52}
    (hsign : Sign.ofBitVec (unpackSign b) = s) (hexponent : unpackExponent b = 0#11)
    (hmantissa : unpackMantissa b = mantissa) (hne : mantissa ≠ 0#52) (hpos : 0 < mantissa.toNat) :
    unpack Format.binary64 b = .finite s mantissa.toNat (-1074) hpos := by
  subst hsign hmantissa
  unfold unpack
  dsimp only
  rw [if_neg (by rw [hexponent]; decide), if_pos hexponent, dif_neg hne]
  exact finite_congr rfl (by rw [hexponent]; rfl)

/-- What the bits of an infinity stand for. -/
theorem unpack_infinity {b : BitVec Format.binary64.numBits} {s : Sign}
    (hsign : Sign.ofBitVec (unpackSign b) = s) (hexponent : unpackExponent b = -1#11)
    (hmantissa : unpackMantissa b = 0#52) : unpack Format.binary64 b = .infinity s := by
  subst hsign
  unfold unpack
  dsimp only
  rw [if_pos hexponent, if_pos hmantissa]

/-- Numbers below the normal ones are kept as they are. Their exponent is the least, and their first
bit is not implied. -/
theorem unpack_pack_subnormal (s : Sign) (hm : m < 2 ^ 52) (hpos : 0 < m) :
    (Float.Model.pack (.finite s m (-1074) hpos)).unpack = .finite s m (-1074) hpos := by
  have hpack : pack Format.binary64 (.finite s m (-1074) hpos) =
      packComponents Format.binary64 s 0#11 (BitVec.ofNat 52 m) := by
    have hbits : ¬ m.log2 + 1 = Format.binary64.mantissaBits := by
      have hlog : m.log2 < 52 := (Nat.log2_lt hpos.ne').2 hm
      change ¬ m.log2 + 1 = 53
      omega
    unfold pack
    dsimp only
    rw [if_neg (by decide), if_neg hbits]
  have hmantissa : (BitVec.ofNat 52 m).toNat = m := by
    rw [BitVec.toNat_ofNat]
    exact Nat.mod_eq_of_lt hm
  have hne : BitVec.ofNat 52 m ≠ 0#52 := by
    intro hzero
    rw [hzero] at hmantissa
    exact hpos.ne hmantissa
  unfold Float.Model.pack Float.Model.unpack
  dsimp only
  rw [hpack, unpack_subnormal (s := s) (by simp) unpackExponent_packComponents
    unpackMantissa_packComponents hne (by omega)]
  exact finite_congr hmantissa rfl

/-- A number that is too great is infinite. Its exponent does not fit its field, which is what
packing looks at. -/
theorem unpack_pack_overflow (s : Sign) (hpos : 0 < m) (he : 971 < e) :
    (Float.Model.pack (.finite s m e hpos)).unpack = .infinity s := by
  have hpack : pack Format.binary64 (.finite s m e hpos) =
      packComponents Format.binary64 s (-1#11) 0#52 := by
    have hbiased : 2 ^ Format.binary64.exponentBits ≤ (e + Format.binary64.exponentBias +
        Format.binary64.mantissaBitsWithoutImplicit).toNat + 1 := by
      change 2048 ≤ (e + 1023 + 52).toNat + 1
      omega
    unfold pack
    dsimp only
    rw [if_pos hbiased]
    rfl
  unfold Float.Model.pack Float.Model.unpack
  dsimp only
  rw [hpack, unpack_infinity (s := s) (by simp) unpackExponent_packComponents
    unpackMantissa_packComponents]

/-- The limit is far above zero. -/
theorem limit_pos : 0 < limit := zpow_pos two_pos _

/-- Numbers of 53 bits with an exponent in range are below the limit. -/
theorem mul_lt_limit (hm : m < 2 ^ 53) (he : e ≤ 971) : (m * 2 ^ e : ℚ) < limit := by
  have hbits : (m : ℚ) < 2 ^ (53 : ℤ) := by exact_mod_cast hm
  calc (m * 2 ^ e : ℚ) < 2 ^ (53 : ℤ) * 2 ^ e := mul_lt_mul_of_pos_right hbits (by positivity)
    _ = 2 ^ (53 + e) := (zpow_add₀ two_ne_zero _ _).symm
    _ ≤ limit := zpow_le_zpow_right₀ one_le_two (by omega)

/-- And those with a greater one are not. -/
theorem limit_le_mul (hm : 2 ^ 52 ≤ m) (he : 971 < e) : limit ≤ (m * 2 ^ e : ℚ) := by
  have hbits : 2 ^ (52 : ℤ) ≤ (m : ℚ) := by exact_mod_cast hm
  calc limit ≤ 2 ^ (52 + e) := zpow_le_zpow_right₀ one_le_two (by omega)
    _ = 2 ^ (52 : ℤ) * 2 ^ e := zpow_add₀ two_ne_zero _ _
    _ ≤ m * 2 ^ e := mul_le_mul_of_nonneg_right hbits (by positivity)

/-- The value of the double that an exact result becomes. -/
def rounded (q : ℚ) : ℚ := max (-limit) (min (nearest q) limit)

/-- The double is an exact result, rounded. It is not NaN, but may be infinite. -/
structure IsRounded (q : ℚ) (x : Float) : Prop where
  /-- its value is that of the nearest double -/
  value_eq : value x = rounded q
  /-- it is a number -/
  isNaN : x.isNaN = false

/-- Cutting off does nothing to numbers below the limit, of either sign. -/
theorem rounded_signed_of_lt (s : Sign) (hnonneg : 0 ≤ x) (hlt : x < limit) :
    max (-limit) (min (signed s x) limit) = signed s x := by
  have hpos := limit_pos
  cases s with
  | positive =>
    change max (-limit) (min x limit) = x
    rw [min_eq_left hlt.le, max_eq_right (by linarith)]
  | negative =>
    change max (-limit) (min (-x) limit) = -x
    rw [min_eq_left (by linarith), max_eq_right (by linarith)]

/-- All other numbers are put at the limit of their sign. -/
theorem rounded_signed_of_ge (s : Sign) (hge : limit ≤ x) :
    max (-limit) (min (signed s x) limit) = signed s limit := by
  have hpos := limit_pos
  cases s with
  | positive =>
    change max (-limit) (min x limit) = limit
    rw [min_eq_right hge, max_eq_right (by linarith)]
  | negative =>
    change max (-limit) (min (-x) limit) = -limit
    rw [min_eq_left (by linarith), max_eq_left (by linarith)]

/-- Numbers of 53 bits and in range are kept as they are. This is the two cases above in one, normal
and subnormal. -/
theorem unpack_pack_of_canonical {a : UnpackedFloat} (h : Canonical a) (hrange : InRange a) :
    (Float.Model.pack a).unpack = a := by
  cases a with
  | notANumber => rfl
  | infinity s => cases s <;> rfl
  | zero s => cases s <;> rfl
  | finite s m e hm =>
    obtain ⟨hbits, hfull⟩ := mantissa_of_canonical h
    have hleast := least_le_of_canonical h
    obtain hsub | hnormal := Nat.lt_or_ge m (2 ^ 52)
    · obtain rfl : e = -1074 := by
        by_contra hne
        exact absurd (hfull (lt_of_le_of_ne hleast (Ne.symm hne))) (Nat.not_le.2 hsub)
      exact unpack_pack_subnormal s hsub hm
    · exact unpack_pack_normal s ⟨hnormal, hbits⟩ hm hleast hrange

/-- **The double that an exact result becomes is that result, rounded.** -/
theorem isRounded_pack {a : UnpackedFloat} (h : IsNearest q a) :
    IsRounded q (Float.ofModel (.pack a)) := by
  obtain ⟨hfinite, hcanonical, hvalue⟩ := h
  have hunpack : ∀ b : UnpackedFloat, (Float.Model.pack a).unpack = b → exactValue b = rounded q →
      b.isNaN = false → IsRounded q (Float.ofModel (.pack a)) := by
    rintro b rfl hb hnumber
    exact ⟨hb, hnumber⟩
  unfold rounded at hunpack
  rw [← hvalue] at hunpack
  cases a with
  | infinity s => exact nomatch hfinite
  | notANumber => exact nomatch hfinite
  | zero s =>
    have hpos := limit_pos
    refine hunpack _ (unpack_pack_of_canonical trivial trivial) ?_ rfl
    rw [exactValue_zero, min_eq_left hpos.le, max_eq_right (by linarith)]
  | finite s m e hm =>
    obtain ⟨hbits, hfull⟩ := mantissa_of_canonical hcanonical
    obtain he | he := le_or_gt e 971
    · refine hunpack _ (unpack_pack_of_canonical hcanonical he) ?_ rfl
      rw [exactValue, rounded_signed_of_lt s (by positivity) (mul_lt_limit hbits he)]
    · refine hunpack _ (unpack_pack_overflow s hm he) ?_ rfl
      rw [exactValue, exactValue, rounded_signed_of_ge s (limit_le_mul (hfull (by omega)) he)]

section

variable {y z : Float}

/-- **Sums of finite doubles are the exact sums, rounded.** -/
theorem isRounded_add (hy : y.isFinite = true) (hz : z.isFinite = true) :
    IsRounded (value y + value z) (y + z) :=
  isRounded_pack (isNearest_add hy hz (canonical_unpack y.toModel) (canonical_unpack z.toModel))

/-- **Differences are the exact differences, rounded.** -/
theorem isRounded_sub (hy : y.isFinite = true) (hz : z.isFinite = true) :
    IsRounded (value y - value z) (y - z) :=
  isRounded_pack (isNearest_sub hy hz (canonical_unpack y.toModel) (canonical_unpack z.toModel))

/-- **Products are the exact products, rounded.** -/
theorem isRounded_mul (hy : y.isFinite = true) (hz : z.isFinite = true) :
    IsRounded (value y * value z) (y * z) :=
  isRounded_pack (isNearest_mul hy hz (canonical_unpack y.toModel) (canonical_unpack z.toModel))

/-- **Quotients are the exact quotients, rounded**, unless the divisor is zero. -/
theorem isRounded_div (hy : y.isFinite = true) (hz : z.isFinite = true) (hne : value z ≠ 0) :
    IsRounded (value y / value z) (y / z) :=
  isRounded_pack (isNearest_div hy hz hne)

end

end Telescope.Double
