import Telescope.Proofs.Doubles

/-!
# Quotients of doubles

A decimal number with places after the point is a quotient, of its digits and a power of ten, and is
rounded once. For six places this module shows that the rounding neither loses a number nor lets it
overflow:

* `roundWithAccuracy_normal`: rounding 53 bits or more makes a normal number of about that size;
* `div_normal`: so does division, which computes that many bits first;
* `isPositiveFinite_millionths`: a whole number of millionths is a positive number;
* `ofScientific_whole`: near the upper end of the range, where no size would do, a whole double in
  millionths is the double itself.
-/

namespace Telescope.Double

open Float.Model (Format UnpackedFloat totalExponent)
open Float.Model.UnpackedFloat

/-! ## Normal numbers

Numbers that are not below the normal ones are the easy case of rounding: the mantissa keeps its 53
bits, and size and exponent determine each other. -/

/-- The mantissa of a normal number has 53 bits. -/
def IsNormalMantissa (m : Nat) : Prop := 2 ^ 52 ≤ m ∧ m < 2 ^ 53

instance (m : Nat) : Decidable (IsNormalMantissa m) :=
  inferInstanceAs (Decidable (_ ∧ _))

/-- A mantissa of 53 bits has its first bit at the 53rd place. -/
theorem log2_eq_of_isNormalMantissa {m : Nat} (h : IsNormalMantissa m) : m.log2 = 52 := by
  obtain ⟨hlow, hhigh⟩ := h
  rw [Nat.log2_eq_iff (by omega)]
  exact ⟨hlow, hhigh⟩

/-- Two numbers with the same parts are the same, whatever the proofs that their mantissas are
positive. -/
theorem finite_congr {s : Sign} {m m' : Nat} {e e' : Int} {h : 0 < m} {h' : 0 < m'}
    (hm : m = m') (he : e = e') : UnpackedFloat.finite s m e h = .finite s m' e' h' := by
  subst hm he
  rfl

/-- The exact value of a normal number, from its three parts. -/
theorem unpack_normal {b : BitVec Format.binary64.numBits} {s : Sign} {exponent : BitVec 11}
    {mantissa : BitVec 52} (hsign : Sign.ofBitVec (unpackSign b) = s)
    (hexponent : unpackExponent b = exponent) (hmantissa : unpackMantissa b = mantissa)
    (htop : exponent ≠ -1#11) (hzero : exponent ≠ 0#11) (hpos : 0 < (1#1 ++ mantissa).toNat) :
    unpack Format.binary64 b =
      .finite s (1#1 ++ mantissa).toNat ((exponent.toNat : Int) - 1075) hpos := by
  subst hsign hexponent hmantissa
  unfold unpack
  dsimp only
  rw [if_neg htop, if_neg hzero]
  rfl

/-- Normal numbers in range are kept as they are. -/
theorem unpack_pack_normal (s : Sign) {m : Nat} (hm : IsNormalMantissa m) (hpos : 0 < m) {e : Int}
    (hlow : -1074 ≤ e) (hhigh : e ≤ 971) :
    (Float.Model.pack (.finite s m e hpos)).unpack = .finite s m e hpos := by
  have hlog := log2_eq_of_isNormalMantissa hm
  obtain ⟨hleast, hmost⟩ := hm
  obtain ⟨exponent, hexponent⟩ : ∃ exponent : BitVec 11, exponent.toNat = (e + 1075).toNat :=
    ⟨BitVec.ofNat 11 (e + 1075).toNat, by rw [BitVec.toNat_ofNat]; omega⟩
  have hpack : pack Format.binary64 (.finite s m e hpos) =
      packComponents Format.binary64 s exponent (BitVec.ofNat 52 m) := by
    have hbiased : (e + Format.binary64.exponentBias +
        Format.binary64.mantissaBitsWithoutImplicit).toNat = exponent.toNat := by
      change (e + 1023 + 52).toNat = _
      omega
    have hbelow : ¬ 2 ^ Format.binary64.exponentBits ≤ exponent.toNat + 1 := by
      change ¬ 2048 ≤ _
      omega
    have hfull : m.log2 + 1 = Format.binary64.mantissaBits := by
      rw [hlog]
      rfl
    unfold pack
    dsimp only
    rw [hbiased, if_neg hbelow, if_pos hfull, BitVec.ofNat_toNat, BitVec.setWidth_eq]
  -- the exponent is neither that of infinity nor that of the least numbers
  have htop : exponent ≠ -1#11 := by
    rintro rfl
    change 2047 = _ at hexponent
    omega
  have hzero : exponent ≠ 0#11 := by
    rintro rfl
    change 0 = _ at hexponent
    omega
  have hmantissa : (1#1 ++ BitVec.ofNat 52 m).toNat = m := by
    rw [toNat_implicit, BitVec.toNat_ofNat]
    omega
  unfold Float.Model.pack Float.Model.unpack
  dsimp only
  rw [hpack, unpack_normal (s := s) (by simp) unpackExponent_packComponents
    unpackMantissa_packComponents htop hzero (by omega)]
  exact finite_congr hmantissa (by omega)

/-! ## Rounding

What rounding does to the size of a number, without asking to which number it rounds. For a lower
bound on a result this is enough, and it is easier to carry through a division than the value. -/

/-- Shifting divides by a power of two, and the rest goes to the two residual bits. -/
theorem mantissa_shiftRight (em : ExtendedMantissa) (shift : Nat) :
    (em >>> shift).mantissa = em.mantissa / 2 ^ shift := by
  induction shift with
  | zero =>
    rw [Nat.pow_zero, Nat.div_one]
    rfl
  | succ shift ih =>
    have hlast : (em >>> (shift + 1)).mantissa = (em >>> shift).mantissa / 2 := rfl
    rw [hlast, ih, Nat.div_div_eq_div_mul, Nat.pow_succ]

/-- The residual bits are beside the mantissa and not in it. -/
theorem mantissa_ofMantissaAndAccuracy (m : Nat) (accuracy : Accuracy) :
    (ExtendedMantissa.ofMantissaAndAccuracy m accuracy).mantissa = m := by
  cases accuracy with
  | exact => rfl
  | inexact order => cases order <;> rfl

/-- Rounding moves a mantissa up by one at most. -/
theorem roundedMantissa_bounds (em : ExtendedMantissa) :
    em.mantissa ≤ em.roundedMantissa ∧ em.roundedMantissa ≤ em.mantissa + 1 := by
  unfold ExtendedMantissa.roundedMantissa Accuracy.roundToNearestEven
  split <;> omega

/-- Rounding a number of at least 53 bits that is not subnormal makes a normal number of about the
same size. -/
theorem roundWithAccuracy_normal (s : Sign) {m : Nat} (hm : 2 ^ 52 ≤ m) {e : Int}
    (hsize : -1021 ≤ totalExponent m e) (accuracy : Accuracy) :
    ∃ m' e' hpos, roundWithAccuracy Format.binary64 s m e accuracy = .finite s m' e' hpos ∧
      IsNormalMantissa m' ∧ totalExponent m e - 53 ≤ e' ∧ e' ≤ totalExponent m e - 52 := by
  have hlog : 52 ≤ m.log2 := (Nat.le_log2 (by omega)).2 hm
  have htarget : Format.binary64.targetExponent (totalExponent m e) = totalExponent m e - 53 := by
    rw [targetExponent_eq]
    omega
  obtain ⟨shift, hshift⟩ : ∃ shift, shift + 52 = m.log2 := ⟨m.log2 - 52, by omega⟩
  have hamount : (totalExponent m e - 53 - e).toNat = shift := by
    unfold totalExponent
    omega
  -- the first shift leaves 53 bits
  let first := ExtendedMantissa.ofMantissaAndAccuracy m accuracy >>> shift
  have hshifted : shiftToTargetExponent Format.binary64 m e accuracy = (first, e + shift) := by
    rw [shiftToTargetExponent, htarget, shiftToExponent, hamount]
  have hfirst : IsNormalMantissa first.mantissa := by
    have hpow : 2 ^ m.log2 = 2 ^ 52 * 2 ^ shift := by rw [← Nat.pow_add, ← hshift, Nat.add_comm]
    have hpow' : 2 ^ (m.log2 + 1) = 2 ^ 53 * 2 ^ shift := by
      rw [← Nat.pow_add]
      congr 1
      omega
    obtain ⟨hleast, hmost⟩ := (Nat.log2_eq_iff (by omega)).1 (rfl : m.log2 = m.log2)
    rw [mantissa_shiftRight, mantissa_ofMantissaAndAccuracy]
    constructor
    · rw [Nat.le_div_iff_mul_le (Nat.two_pow_pos shift), ← hpow]
      exact hleast
    · rw [Nat.div_lt_iff_lt_mul (Nat.two_pow_pos shift), ← hpow']
      exact hmost
  obtain ⟨hup, hbelow⟩ := roundedMantissa_bounds first
  obtain ⟨hleast, hmost⟩ := hfirst
  -- rounding can carry into a 54th bit, which the second shift takes off again
  obtain ⟨again, hagain, hfinal⟩ : ∃ again, first.roundedMantissa.log2 = 52 + again ∧
      IsNormalMantissa (first.roundedMantissa / 2 ^ again) ∧ again ≤ 1 := by
    by_cases hcarry : first.roundedMantissa = 2 ^ 53
    · rw [hcarry]
      exact ⟨1, by decide, by decide, by decide⟩
    · have hnormal : IsNormalMantissa first.roundedMantissa := ⟨by omega, by omega⟩
      refine ⟨0, log2_eq_of_isNormalMantissa hnormal, ?_, by decide⟩
      rw [Nat.pow_zero, Nat.div_one]
      exact hnormal
  have hsecond : shiftToTargetExponent Format.binary64 first.roundedMantissa (e + shift) .exact =
      (ExtendedMantissa.ofMantissaAndAccuracy first.roundedMantissa .exact >>> again,
        e + shift + again) := by
    have htotal : totalExponent first.roundedMantissa (e + shift) =
        totalExponent m e + again := by
      rw [totalExponent, totalExponent, hagain]
      omega
    have hamount : (Format.binary64.targetExponent
        (totalExponent first.roundedMantissa (e + shift)) - (e + shift)).toNat = again := by
      rw [htotal, targetExponent_eq]
      unfold totalExponent at *
      omega
    rw [shiftToTargetExponent, shiftToExponent, hamount]
  obtain ⟨hnormal, hagain'⟩ := hfinal
  have hmantissa : (ExtendedMantissa.ofMantissaAndAccuracy first.roundedMantissa .exact
      >>> again).mantissa = first.roundedMantissa / 2 ^ again := by
    rw [mantissa_shiftRight, mantissa_ofMantissaAndAccuracy]
  have hpos : 0 < first.roundedMantissa / 2 ^ again := by
    have := hnormal.1
    omega
  refine ⟨_, e + shift + again, hpos, ?_, hnormal, ?_, ?_⟩
  · exact roundWithAccuracy_eq hshifted hsecond hmantissa hpos
  · unfold totalExponent
    omega
  · unfold totalExponent
    omega

/-! ## Division

The division of doubles shifts the numerator until the quotient has all bits of a double, and
divides whole numbers. The size of the quotient is known from the sizes of the two up to one bit. -/

/-- A quotient has as many bits as its numerator has more than its denominator, or one more. -/
theorem quotient_bounds {m₁ m₂ bits : Nat} (h₁ : 0 < m₁) (h₂ : 0 < m₂)
    (hbits : bits + m₂.log2 + 1 = m₁.log2) : 2 ^ bits ≤ m₁ / m₂ ∧ m₁ / m₂ < 2 ^ (bits + 2) := by
  obtain ⟨hlow₁, hhigh₁⟩ := (Nat.log2_eq_iff (Nat.ne_of_gt h₁)).1 (rfl : m₁.log2 = m₁.log2)
  obtain ⟨hlow₂, hhigh₂⟩ := (Nat.log2_eq_iff (Nat.ne_of_gt h₂)).1 (rfl : m₂.log2 = m₂.log2)
  constructor
  · rw [Nat.le_div_iff_mul_le h₂]
    calc 2 ^ bits * m₂ ≤ 2 ^ bits * 2 ^ (m₂.log2 + 1) := Nat.mul_le_mul_left _ (Nat.le_of_lt hhigh₂)
      _ = 2 ^ m₁.log2 := by rw [← Nat.pow_add, ← Nat.add_assoc, hbits]
      _ ≤ m₁ := hlow₁
  · rw [Nat.div_lt_iff_lt_mul h₂]
    calc m₁ < 2 ^ (m₁.log2 + 1) := hhigh₁
      _ = 2 ^ (bits + 2) * 2 ^ m₂.log2 := by
        rw [← Nat.pow_add, ← hbits]
        congr 1
        omega
      _ ≤ 2 ^ (bits + 2) * m₂ := Nat.mul_le_mul_left _ hlow₂

/-- A quotient that is not subnormal is a normal number of about the size of the quotient. So its
size can be followed through divisions without its digits. -/
theorem div_normal {m₁ m₂ : Nat} (h₁ : 0 < m₁) (h₂ : 0 < m₂) {e₁ e₂ : Int}
    (hsize : -1021 ≤ totalExponent m₁ e₁ - totalExponent m₂ e₂) :
    ∃ m e hpos, div Format.binary64 (.finite .positive m₁ e₁ h₁) (.finite .positive m₂ e₂ h₂) =
        .finite .positive m e hpos ∧ IsNormalMantissa m ∧ -1074 ≤ e ∧
      e ≤ totalExponent m₁ e₁ - totalExponent m₂ e₂ - 51 := by
  obtain ⟨target, htarget⟩ : ∃ target, min (e₁ - e₂) (Format.binary64.targetExponent
      (totalExponent m₁ e₁ - totalExponent m₂ e₂)) = target := ⟨_, rfl⟩
  obtain ⟨shift, hshift⟩ : ∃ shift, (e₁ - e₂ - target).toNat = shift := ⟨_, rfl⟩
  have hdiv : div Format.binary64 (.finite .positive m₁ e₁ h₁) (.finite .positive m₂ e₂ h₂) =
      roundWithAccuracy Format.binary64 .positive ((m₁ <<< shift) / m₂) target
        (accuracyOfFraction ((m₁ <<< shift) % m₂) m₂) := by
    unfold div divCore
    dsimp only
    rw [htarget, hshift]
    rfl
  -- from here on the sizes are those of the mantissas and the exponents, and linear
  rw [targetExponent_eq] at htarget
  unfold totalExponent at htarget hsize ⊢
  have hscaled : 0 < m₁ <<< shift := by
    rw [Nat.shiftLeft_eq]
    exact Nat.mul_pos h₁ (Nat.two_pow_pos shift)
  have hlog : (m₁ <<< shift).log2 = m₁.log2 + shift := by
    rw [Nat.shiftLeft_eq, log2_mul_two_pow h₁]
  obtain ⟨bits, hbits⟩ : ∃ bits, bits + m₂.log2 + 1 = m₁.log2 + shift :=
    ⟨m₁.log2 + shift - m₂.log2 - 1, by omega⟩
  obtain ⟨hleast, hmost⟩ := quotient_bounds hscaled h₂ (hbits.trans hlog.symm)
  have hquotient : m₁ <<< shift / m₂ ≠ 0 := by
    have := Nat.two_pow_pos bits
    omega
  have hleast' := (Nat.le_log2 hquotient).2 hleast
  have hmost' := (Nat.log2_lt hquotient).2 hmost
  have hfull : 2 ^ 52 ≤ m₁ <<< shift / m₂ :=
    Nat.le_trans (Nat.pow_le_pow_right (by decide) (by omega)) hleast
  obtain ⟨m, e, hpos, hround, hnormal, hlow, hhigh⟩ := roundWithAccuracy_normal .positive hfull
    (e := target) (by unfold totalExponent; omega) (accuracyOfFraction ((m₁ <<< shift) % m₂) m₂)
  unfold totalExponent at hlow hhigh
  exact ⟨m, e, hpos, hdiv.trans hround, hnormal, by omega, by omega⟩

/-! ## Ranges

What was a double before an operation has its exponent in range, so only the exponent of the result
has to be looked at. -/

/-- The exponents of finite doubles end at 971. -/
def InRange : UnpackedFloat → Prop
  | .finite _ _ e _ => e ≤ 971
  | _ => True

/-- Unpacking gives no exponent beyond the range. -/
theorem inRange_unpack (m : Float.Model) : InRange m.unpack := by
  obtain ⟨b, hb⟩ : ∃ b : BitVec Format.binary64.numBits, m.toBits.toBitVec = b := ⟨_, rfl⟩
  have hlt : (unpackExponent b).toNat < 2048 := (unpackExponent b).isLt
  unfold Float.Model.unpack unpack
  dsimp only
  rw [hb]
  split
  · split <;> trivial
  · next htop =>
    have hne : (unpackExponent b).toNat ≠ 2047 := fun h => htop (BitVec.eq_of_toNat_eq h)
    split
    · next hzero =>
      split
      · trivial
      · rw [hzero]
        change (0 : Int) - 1075 + 1 ≤ 971
        decide
    · change ((unpackExponent b).toNat : Int) - 1075 ≤ 971
      omega

/-- The mantissas of doubles have 53 bits, and fewer only with the least exponent. -/
theorem mantissa_of_canonical {s : Sign} {m : Nat} {e : Int} {hpos : 0 < m}
    (h : Canonical (.finite s m e hpos)) : m < 2 ^ 53 ∧ (-1074 < e → 2 ^ 52 ≤ m) := by
  rw [Canonical, targetExponent_eq, totalExponent] at h
  constructor
  · rw [← Nat.log2_lt (Nat.ne_of_gt hpos)]
    omega
  · intro he
    rw [← Nat.le_log2 (Nat.ne_of_gt hpos)]
    omega

/-! ## Whole numbers and millionths

A text with six decimal places is read as its digits over a million. Depending on the number of
digits the quotient is one of doubles or one of whole numbers that is rounded at the end; both give
a positive number if the digits are not all zero. -/

/-- A whole number of less than 53 bits is a double. It is shifted up to have all bits, and none is
rounded off. -/
theorem unpack_ofUInt64 {n : UInt64} (hpos : 0 < n.toNat) (hlt : n.toNat < 2 ^ 53) :
    ∃ m e h, n.toFloat.toModel.unpack = .finite .positive m e h ∧
      totalExponent m e = n.toNat.log2 + 1 := by
  have hlog : n.toNat.log2 < 53 := (Nat.log2_lt (Nat.ne_of_gt hpos)).2 hlt
  obtain ⟨shift, hshift⟩ : ∃ shift, shift + n.toNat.log2 = 52 := ⟨52 - n.toNat.log2, by omega⟩
  have hscaled : 0 < n.toNat * 2 ^ shift := Nat.mul_pos hpos (Nat.two_pow_pos shift)
  have hlogScaled : (n.toNat * 2 ^ shift).log2 = 52 := by
    rw [log2_mul_two_pow hpos]
    omega
  have hnormal : IsNormalMantissa (n.toNat * 2 ^ shift) := by
    obtain ⟨hleast, hmost⟩ := (Nat.log2_eq_iff (Nat.ne_of_gt hscaled)).1 hlogScaled
    exact ⟨hleast, hmost⟩
  have hcanonical : Format.binary64.targetExponent
      (totalExponent (n.toNat * 2 ^ shift) (-shift)) = -shift := by
    rw [targetExponent_eq, totalExponent, hlogScaled]
    omega
  have htarget : (0 - Format.binary64.targetExponent (totalExponent n.toNat 0)).toNat = shift := by
    rw [targetExponent_eq, totalExponent]
    omega
  -- a number of less than 53 bits is shifted up, and nothing is rounded
  have hround : UnpackedFloat.round Format.binary64 .positive n.toNat 0 =
      .finite .positive (n.toNat * 2 ^ shift) (-shift) hscaled := by
    unfold UnpackedFloat.round decreaseExponent
    dsimp only
    rw [htarget, Nat.shiftLeft_eq]
    have hexact := roundWithAccuracy_exact .positive hscaled hcanonical 0
    have hstart : ((0 : Int) - (shift : Int)) = -(shift : Int) - (0 : Nat) := by omega
    rw [Nat.pow_zero, Nat.mul_one, ← hstart] at hexact
    exact hexact
  have hof : ofUInt64 Format.binary64 n =
      .finite .positive (n.toNat * 2 ^ shift) (-shift) hscaled := by
    have hgreater : compare (n.toNat : Int) 0 = .gt := Int.compare_eq_gt.2 (by omega)
    unfold ofUInt64 ofNat ofInt UnpackedFloat.normalize
    rw [hgreater]
    exact hround
  refine ⟨n.toNat * 2 ^ shift, -shift, hscaled, ?_, ?_⟩
  · have hpack := unpack_pack_normal .positive hnormal hscaled (e := -shift) (by omega) (by omega)
    rw [← hof] at hpack
    exact hpack.trans hof
  · rw [totalExponent, hlogScaled]
    omega

/-- A million, as it stands in the table of the exact powers of ten. -/
def million : Float := Float.ofBits 0x412E848000000000

/-- A million has all its bits in the mantissa. -/
theorem unpack_million :
    million.toModel.unpack = .finite .positive (10 ^ 6 * 2 ^ 33) (-33) (by decide) := by
  rfl

/-- It is a number of twenty bits. -/
theorem totalExponent_million : totalExponent (10 ^ 6 * 2 ^ 33) (-33) = 20 := by
  decide +kernel

/-- A number of millionths that fits is divided as a double. -/
theorem ofScientific_six_of_lt {n : Nat} (h : n < 2 ^ 53) :
    Float.ofScientific n true 6 = n.toUInt64.toFloat / million := by
  unfold Float.ofScientific
  rw [dif_pos ⟨h, by decide⟩]
  rfl

/-- A greater one is divided as a fraction. -/
theorem ofScientific_six_of_le {n : Nat} (h : 2 ^ 53 ≤ n) :
    Float.ofScientific n true 6 =
      Float.ofModel (.pack (div Format.binary64 (.finite .positive n 0 (by omega))
        (.finite .positive (10 ^ 6) 0 (by decide)))) := by
  have hlarge : ¬ (n < 2 ^ 53 ∧ 6 ≤ 22) := by omega
  have hmoderate : ¬ Int.negOfNat 6 < -((2 ^ Format.binary64.exponentBits : Int) + n.log2) := by
    change ¬ (-6 : Int) < -(2048 + (n.log2 : Int))
    omega
  unfold Float.ofScientific
  rw [dif_neg hlarge]
  dsimp only
  rw [if_pos rfl]
  unfold Float.Model.ofScientific ofScientific
  rw [dif_neg (by omega), if_neg (by decide), if_neg hmoderate, if_neg (by decide)]
  rfl

/-- The double is a positive number, neither infinite nor NaN. -/
def IsPositiveFinite (x : Float) : Prop :=
  ∃ m e h, x.toModel.unpack = .finite .positive m e h

/-- The quotient of two positive numbers is one if it is neither too small nor too great. -/
theorem isPositiveFinite_div {m₁ m₂ : Nat} {e₁ e₂ : Int} (h₁ : 0 < m₁) (h₂ : 0 < m₂)
    (hlow : -1021 ≤ totalExponent m₁ e₁ - totalExponent m₂ e₂)
    (hhigh : totalExponent m₁ e₁ - totalExponent m₂ e₂ ≤ 1022) :
    IsPositiveFinite (Float.ofModel (.pack (div Format.binary64 (.finite .positive m₁ e₁ h₁)
      (.finite .positive m₂ e₂ h₂)))) := by
  obtain ⟨m, e, hpos, hdiv, hnormal, hleast, hmost⟩ := div_normal h₁ h₂ hlow
  rw [hdiv]
  exact ⟨m, e, hpos, unpack_pack_normal .positive hnormal hpos hleast (by omega)⟩

/-- A whole number of millionths is a positive number. The division is far from both ends of the
range. -/
theorem isPositiveFinite_millionths {n : Nat} (hpos : 0 < n) (hlt : n < 2 ^ 200) :
    IsPositiveFinite (Float.ofScientific n true 6) := by
  have hlog : n.log2 < 200 := (Nat.log2_lt (Nat.ne_of_gt hpos)).2 hlt
  -- the reader divides doubles as long as both are exact, and fractions beyond
  by_cases hsmall : n < 2 ^ 53
  · have hn : n.toUInt64.toNat = n := UInt64.toNat_ofNat_of_lt' (by change n < 2 ^ 64; omega)
    obtain ⟨m, e, h, hunpack, htotal⟩ := unpack_ofUInt64 (n := n.toUInt64) (by omega) (by omega)
    have hquotient : n.toUInt64.toFloat / million = Float.ofModel (.pack (div Format.binary64
        (.finite .positive m e h) (.finite .positive (10 ^ 6 * 2 ^ 33) (-33) (by decide)))) := by
      rw [← hunpack, ← unpack_million]
      rfl
    have hmillion := totalExponent_million
    rw [hn] at htotal
    rw [ofScientific_six_of_lt hsmall, hquotient]
    exact isPositiveFinite_div _ _ (by omega) (by omega)
  · have hmillion : totalExponent (10 ^ 6) 0 = 20 := by decide +kernel
    have htotal : totalExponent n 0 = n.log2 + 1 := by
      unfold totalExponent
      omega
    rw [ofScientific_six_of_le (by omega)]
    exact isPositiveFinite_div _ _ (by omega) (by omega)

/-- A whole number that is a double is that double, when it is given in millionths, however great it
is. -/
theorem ofScientific_whole {m e : Nat} {hpos : 0 < m}
    (hcanonical : Canonical (.finite .positive m e hpos)) (hlarge : 2 ^ 53 ≤ m * 2 ^ e * 10 ^ 6) :
    Float.ofScientific (m * 2 ^ e * 10 ^ 6) true 6 =
      Float.ofModel (.pack (.finite .positive m e hpos)) := by
  have hdiv : div Format.binary64 (.finite .positive (m * 2 ^ e * 10 ^ 6) 0 (by omega))
      (.finite .positive (10 ^ 6) 0 (by decide)) = .finite .positive m e hpos := by
    obtain ⟨target, htarget⟩ : ∃ target, min ((0 : Int) - 0) (Format.binary64.targetExponent
        (totalExponent (m * 2 ^ e * 10 ^ 6) 0 - totalExponent (10 ^ 6) 0)) = target := ⟨_, rfl⟩
    obtain ⟨shift, hshift⟩ : ∃ shift, ((0 : Int) - 0 - target).toNat = shift := ⟨_, rfl⟩
    have hscaled : (m * 2 ^ e * 10 ^ 6) <<< shift = m * 2 ^ (e + shift) * 10 ^ 6 := by
      rw [Nat.shiftLeft_eq, Nat.pow_add]
      ring
    have hstart : target = (e : Int) - ((e + shift : Nat) : Int) := by omega
    unfold div divCore
    dsimp only
    rw [htarget, hshift, hscaled, Nat.mul_div_cancel _ (by decide), Nat.mul_mod_left, hstart]
    exact roundWithAccuracy_exact .positive hpos hcanonical (e + shift)
  rw [ofScientific_six_of_le hlarge, hdiv]

/-! ## Signs

A text with a minus is never read as a positive number, however great it is. -/

/-- Positive numbers are finite and above zero. -/
theorem isFinite_and_pos {x : Float} (h : IsPositiveFinite x) : x.isFinite = true ∧ 0.0 < x := by
  obtain ⟨m, e, hpos, hx⟩ := h
  constructor
  · change x.toModel.unpack.isFinite = true
    rw [hx]
    rfl
  · rw [pos_iff, hx]
    rfl

/-- A double with a minus sign is not positive, whatever its other bits. -/
theorem not_pos_of_unpackSign {b : BitVec Format.binary64.numBits}
    (h : Sign.ofBitVec (unpackSign b) = .negative) :
    ¬ UnpackedFloat.lt (.zero .positive) (unpack Format.binary64 b) = true := by
  unfold unpack
  dsimp only
  rw [h]
  split
  · split <;> decide
  · split
    · split
      · decide
      · exact Bool.false_ne_true
    · exact Bool.false_ne_true

/-- A packed number keeps its sign, even if it overflows. -/
theorem not_pos_pack_negative {m : Nat} {e : Int} (hpos : 0 < m) :
    ¬ UnpackedFloat.lt (.zero .positive)
      (Float.Model.pack (.finite .negative m e hpos)).unpack = true := by
  have hsign : ∃ exponent mantissa, pack Format.binary64 (.finite .negative m e hpos) =
      packComponents Format.binary64 .negative exponent mantissa := by
    unfold pack
    dsimp only
    split
    · exact ⟨_, _, rfl⟩
    · split <;> exact ⟨_, _, rfl⟩
  obtain ⟨exponent, mantissa, hpack⟩ := hsign
  unfold Float.Model.pack Float.Model.unpack
  dsimp only
  rw [hpack]
  exact not_pos_of_unpackSign (by simp)

/-- The negative of a positive number is not positive. -/
theorem not_pos_neg {x : Float} (h : IsPositiveFinite x) : ¬ 0.0 < -x := by
  obtain ⟨m, e, hpos, hx⟩ := h
  have hneg : (-x).toModel = .pack (.finite .negative m e hpos) := by
    change Float.Model.pack (UnpackedFloat.neg x.toModel.unpack) = _
    rw [hx]
    rfl
  rw [pos_iff, hneg]
  exact not_pos_pack_negative hpos

end Telescope.Double
