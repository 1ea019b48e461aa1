import Mathlib
import Telescope.Unit

/-!
# Doubles

Facts about the arithmetic of doubles that hold for every double, infinities and NaN included. They
go down to the exact value that the bits stand for:

* `canonical_unpack`: the exponent is always the one that numbers of this size have;
* `roundWithAccuracy_exact`: rounding such a number with additional zeros takes the zeros off again;
* `mul_one`: so a product with one is the very double that it was, and
* `not_le_zero_iff_pos`: every number but NaN is at most zero or above zero.

Doubles are computed here by the definitions of the library, which take a double apart into a sign,
a mantissa and an exponent, compute with these, round and pack. Facts about all doubles go by the
cases of the parts: NaN, infinities, zeros, numbers below the normal ones and normal ones.
-/

namespace Telescope.Double

open Float.Model (Format UnpackedFloat totalExponent)
open Float.Model.UnpackedFloat

/-! ## Bits and parts

A normal number has a mantissa of 53 bits, of which the first is not stored. The other two lemmas
are about this bit. -/

/-- The mantissa of a normal number has one bit more than its field. -/
theorem toNat_implicit (mantissa : BitVec 52) :
    (1#1 ++ mantissa).toNat = 2 ^ 52 + mantissa.toNat := by
  rw [BitVec.toNat_append, Nat.shiftLeft_eq, BitVec.toNat_ofNat]
  have hor := Nat.two_pow_add_eq_or_of_lt mantissa.isLt 1
  simpa using hor.symm

/-- It is the first bit of 53. -/
theorem log2_implicit (mantissa : BitVec 52) : (1#1 ++ mantissa).toNat.log2 = 52 := by
  have hlt := mantissa.isLt
  rw [Nat.log2_eq_iff (by rw [toNat_implicit]; omega), toNat_implicit]
  omega

/-- Taking a double apart and putting it together again changes nothing. -/
theorem pack_unpack_model (m : Float.Model) : Float.Model.pack m.unpack = m := by
  obtain ⟨bits, hvalid⟩ := m
  have hbits := pack_unpack_of_valid hvalid
  unfold Float.Model.pack Float.Model.unpack
  dsimp only
  congr 1
  exact congrArg UInt64.ofBitVec hbits

/-! ## Rounding

The library rounds to the exponent that numbers of this size have. A double that is unpacked has it
already (`canonical_unpack`), so rounding has nothing to do but to take off what an operation has
added. -/

/-- The parts of a double: the exponent is the one that numbers of this size have. -/
def Canonical : UnpackedFloat → Prop
  | .finite _ m e _ => Format.binary64.targetExponent (totalExponent m e) = e
  | _ => True

/-- The format leaves 53 bits, and no exponent below the least one. -/
theorem targetExponent_eq (e : Int) : Format.binary64.targetExponent e = max (e - 53) (-1074) := by
  rfl

/-- Subnormal numbers have fewer than 53 bits and the least exponent. -/
theorem canonical_subnormal (s : Sign) {mantissa : BitVec 52} (hpos : 0 < mantissa.toNat) :
    Canonical (.finite s mantissa.toNat (-1074) hpos) := by
  have hlog : mantissa.toNat.log2 < 52 := (Nat.log2_lt (Nat.ne_of_gt hpos)).2 mantissa.isLt
  rw [Canonical, targetExponent_eq, totalExponent]
  omega

/-- Normal numbers have 53 bits and an exponent from the least one on. -/
theorem canonical_normal (s : Sign) {exponent : BitVec 11} (hzero : exponent ≠ 0#11)
    (mantissa : BitVec 52) (hpos : 0 < (1#1 ++ mantissa).toNat) :
    Canonical (.finite s (1#1 ++ mantissa).toNat (exponent.toNat - 1075) hpos) := by
  have hne : exponent.toNat ≠ 0 := fun h => hzero (BitVec.eq_of_toNat_eq h)
  rw [Canonical, targetExponent_eq, totalExponent, log2_implicit]
  omega

/-- **The parts of a double are canonical**, whatever its bits. -/
theorem canonical_unpack (m : Float.Model) : Canonical m.unpack := by
  unfold Float.Model.unpack unpack
  dsimp only
  split
  · split <;> trivial
  · split
    · next hzero =>
      split
      · trivial
      · rw [hzero]
        exact canonical_subnormal _ _
    · next hzero => exact canonical_normal _ hzero _ _

/-- Zeros that are shifted out leave no trace. -/
theorem shiftRight_exact (m shift : Nat) :
    (⟨m * 2 ^ shift, false, false⟩ : ExtendedMantissa) >>> shift = ⟨m, false, false⟩ := by
  induction shift generalizing m with
  | zero =>
    rw [Nat.pow_zero, Nat.mul_one]
    rfl
  | succ shift ih =>
    have hlast : (⟨m * 2 ^ (shift + 1), false, false⟩ : ExtendedMantissa) >>> (shift + 1) =
        ((⟨m * 2 * 2 ^ shift, false, false⟩ : ExtendedMantissa) >>> shift).shiftRightOne := by
      rw [Nat.pow_succ, Nat.mul_comm (2 ^ shift) 2, ← Nat.mul_assoc]
      rfl
    rw [hlast, ih, ExtendedMantissa.shiftRightOne]
    simp

/-- Zeros behind a number add to its bits. -/
theorem log2_mul_two_pow {m : Nat} (hm : 0 < m) (shift : Nat) :
    (m * 2 ^ shift).log2 = m.log2 + shift := by
  have hscale := Nat.two_pow_pos shift
  obtain ⟨hlow, hhigh⟩ := (Nat.log2_eq_iff (Nat.ne_of_gt hm)).1 rfl
  rw [Nat.log2_eq_iff (Nat.ne_of_gt (Nat.mul_pos hm hscale)), Nat.add_right_comm, Nat.pow_add,
    Nat.pow_add]
  exact ⟨Nat.mul_le_mul_right _ hlow, Nat.mul_lt_mul_of_pos_right hhigh hscale⟩

/-- Rounding is two shifts with a carry between them. -/
theorem roundWithAccuracy_eq {s : Sign} {m m' : Nat} {e e₁ e₂ : Int} {accuracy : Accuracy}
    {first second : ExtendedMantissa}
    (hfirst : shiftToTargetExponent Format.binary64 m e accuracy = (first, e₁))
    (hsecond : shiftToTargetExponent Format.binary64 first.roundedMantissa e₁ .exact = (second, e₂))
    (hm : second.mantissa = m') (hpos : 0 < m') :
    roundWithAccuracy Format.binary64 s m e accuracy = .finite s m' e₂ hpos := by
  subst hm
  unfold roundWithAccuracy
  rw [hfirst]
  dsimp only
  rw [hsecond]
  dsimp only
  rw [dif_neg (Nat.ne_of_gt hpos)]

/-- Rounding takes additional zeros off again, and nothing else. -/
theorem roundWithAccuracy_exact (s : Sign) {m : Nat} (hm : 0 < m) {e : Int}
    (hcanonical : Format.binary64.targetExponent (totalExponent m e) = e) (shift : Nat) :
    roundWithAccuracy Format.binary64 s (m * 2 ^ shift) (e - shift) .exact = .finite s m e hm := by
  have htotal : totalExponent (m * 2 ^ shift) (e - shift) = totalExponent m e := by
    rw [totalExponent, totalExponent, log2_mul_two_pow hm]
    omega
  have hfirst : shiftToTargetExponent Format.binary64 (m * 2 ^ shift) (e - shift) .exact =
      (⟨m, false, false⟩, e) := by
    have hamount : (e - (e - shift)).toNat = shift := by omega
    have hback : e - shift + (shift : Int) = e := by omega
    rw [shiftToTargetExponent, htotal, hcanonical, shiftToExponent, hamount, hback]
    exact congrArg (·, e) (shiftRight_exact m shift)
  have hsecond : shiftToTargetExponent Format.binary64 m e .exact = (⟨m, false, false⟩, e) := by
    have hamount : (e - e).toNat = 0 := by omega
    have hsame : e + ((0 : Nat) : Int) = e := Int.add_zero e
    rw [shiftToTargetExponent, hcanonical, shiftToExponent, hamount, hsame]
    rfl
  exact roundWithAccuracy_eq hfirst hsecond rfl hm

/-! ## One and zero

Two constants that the reader of commands multiplies with and compares with. What holds of them
holds for every double, infinities and NaN too. -/

/-- One is a power of two with a full mantissa. -/
theorem unpack_one :
    (1.0 : Float).toModel.unpack = .finite .positive (2 ^ 52) (-52) (by decide) := by
  rfl

/-- Zero has a sign like the other numbers. -/
theorem unpack_zero : (0.0 : Float).toModel.unpack = .zero .positive := by
  rfl

/-- A positive factor keeps the sign. -/
theorem sign_mul_positive (s : Sign) : s * .positive = s := by
  cases s <;> rfl

/-- A product with one is the double itself. -/
theorem mul_one (x : Float) : x * 1.0 = x := by
  obtain ⟨m⟩ := x
  have hcanonical := canonical_unpack m
  have hmul : mul Format.binary64 m.unpack (1.0 : Float).toModel.unpack = m.unpack := by
    rw [unpack_one]
    cases hparts : m.unpack with
    | notANumber => rfl
    | infinity s => exact congrArg _ (sign_mul_positive s)
    | zero s => exact congrArg _ (sign_mul_positive s)
    | finite s k e hk =>
      rw [hparts] at hcanonical
      have hround := roundWithAccuracy_exact s hk hcanonical 52
      rw [mul, sign_mul_positive]
      exact hround
  have hpack := pack_unpack_model m
  rw [← hmul] at hpack
  exact congrArg Float.ofModel hpack

/-- The order is that of the parts. These four lemmas stand between the symbols of the order and the
comparison of parts, so that no later proof unfolds them. -/
theorem lt_iff {x y : Float} :
    x < y ↔ UnpackedFloat.lt x.toModel.unpack y.toModel.unpack = true := by
  change decide (x.toModel < y.toModel) = true ↔ _
  rw [decide_eq_true_eq]
  rfl

/-- The same for the order with equality. -/
theorem le_iff {x y : Float} :
    x ≤ y ↔ UnpackedFloat.le x.toModel.unpack y.toModel.unpack = true := by
  change decide (x.toModel ≤ y.toModel) = true ↔ _
  rw [decide_eq_true_eq]
  rfl

/-- Above zero, by the parts. -/
theorem pos_iff {x : Float} :
    0.0 < x ↔ UnpackedFloat.lt (.zero .positive) x.toModel.unpack = true := by
  rw [lt_iff, unpack_zero]

/-- At most zero, by the parts. -/
theorem le_zero_iff {x : Float} :
    x ≤ 0.0 ↔ UnpackedFloat.le x.toModel.unpack (.zero .positive) = true := by
  rw [le_iff, unpack_zero]

/-- A number that is not NaN is at most zero or above zero, and not both. -/
theorem not_le_zero_iff_pos {x : Float} (h : x.isNaN = false) : ¬ x ≤ 0.0 ↔ 0.0 < x := by
  have hparts : x.toModel.unpack.isNaN = false := h
  rw [pos_iff, le_zero_iff]
  cases hx : x.toModel.unpack with
  | notANumber =>
    rw [hx] at hparts
    exact absurd hparts (by decide)
  | infinity s => cases s <;> decide
  | zero s => cases s <;> decide
  | finite s m e hm =>
    cases s with
    | positive => exact ⟨fun _ => rfl, fun _ => Bool.false_ne_true⟩
    | negative => exact ⟨fun h => absurd rfl h, fun h => absurd h Bool.false_ne_true⟩

/-- What is not above zero is at most zero, or NaN. -/
theorem not_pos_iff {x : Float} : ¬ 0.0 < x ↔ x.isNaN = true ∨ x ≤ 0.0 := by
  cases hnan : x.isNaN with
  | false => simp [← not_le_zero_iff_pos hnan]
  | true =>
    have hparts : x.toModel.unpack.isNaN = true := hnan
    rw [pos_iff]
    cases hx : x.toModel.unpack with
    | notANumber => simp [UnpackedFloat.lt, UnpackedFloat.compare]
    | _ =>
      rw [hx] at hparts
      exact nomatch hparts

/-- What is finite is a number. -/
theorem isNaN_of_isFinite {x : Float} (h : x.isFinite = true) : x.isNaN = false := by
  have hparts : x.toModel.unpack.isFinite = true := h
  change x.toModel.unpack.isNaN = false
  cases hx : x.toModel.unpack with
  | notANumber =>
    rw [hx] at hparts
    exact absurd hparts (by decide)
  | infinity s => rfl
  | zero s => rfl
  | finite s m e hm => rfl

end Telescope.Double
