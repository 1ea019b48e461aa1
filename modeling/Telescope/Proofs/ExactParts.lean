import Telescope.Decimal.Basic
import Telescope.Proofs.Doubles

/-!
# The parts of a double

The writer of numbers takes the sign, the mantissa and the exponent of a double from its bits. They
are those of its exact value (`Binary.ofFloat?_eq`), and finite doubles have them
(`Binary.exists_ofFloat?`).

There are two views of the same 64 bits. The writer divides the number of the bits by powers of two,
as a program would; the arithmetic of the library takes fields of a bit vector. All that is proved
about rounding speaks of the second view, and all that is written comes from the first, so printing
and reading can only be compared once the two agree.
-/

namespace Telescope

open Float.Model (Format UnpackedFloat)
open Float.Model.UnpackedFloat

namespace Binary

/-! ## The fields of the bits

A field of the bits as the writer computes it, by division and remainder. -/

/-- The mantissa has the lowest 52 bits. -/
theorem toNat_unpackMantissa (b : BitVec Format.binary64.numBits) :
    (unpackMantissa b).toNat = b.toNat % hiddenBit := by
  unfold unpackMantissa
  rw [BitVec.toNat_cast, BitVec.extractLsb_toNat]
  rfl

/-- The exponent has the eleven bits above them. -/
theorem toNat_unpackExponent (b : BitVec Format.binary64.numBits) :
    (unpackExponent b).toNat = b.toNat / hiddenBit % 2048 := by
  unfold unpackExponent
  rw [BitVec.toNat_cast, BitVec.extractLsb_toNat, Nat.shiftRight_eq_div_pow]
  rfl

/-- The sign is what remains. -/
theorem toNat_unpackSign (b : BitVec Format.binary64.numBits) :
    (unpackSign b).toNat = b.toNat / powerOfTwo 63 := by
  have hlt : b.toNat < 2 ^ 64 := b.isLt
  unfold unpackSign
  rw [BitVec.toNat_cast, BitVec.extractLsb_toNat, Nat.shiftRight_eq_div_pow]
  refine Nat.mod_eq_of_lt ?_
  change b.toNat / 2 ^ 63 < 2
  omega

/-! ## The exact value

With the fields known, the cases of the two views are matched: NaN and infinities have no parts, and
of the others the exponent decides whether the first bit is stored. -/

/-- Whether a sign is a minus. -/
def isMinus : Sign → Bool
  | .negative => true
  | .positive => false

/-- The bit of the sign is one for a minus. -/
theorem isMinus_ofBitVec (s : BitVec 1) : isMinus (Sign.ofBitVec s) = decide (s.toNat = 1) := by
  revert s
  decide

/-- The parts of an exact value. -/
def ofUnpacked? : UnpackedFloat → Option Binary
  | .finite s m e _ => some ⟨isMinus s, m, e⟩
  | .zero s => some ⟨isMinus s, 0, leastExponent⟩
  | _ => none

/-- The parts that the bits of a double give are those of its exact value. -/
theorem ofFloat?_eq (x : Float) : ofFloat? x = ofUnpacked? x.toModel.unpack := by
  obtain ⟨b, hb⟩ : ∃ b : BitVec Format.binary64.numBits, x.toModel.toBits.toBitVec = b := ⟨_, rfl⟩
  have hbits : x.toBits.toNat = b.toNat := congrArg BitVec.toNat hb
  have hsign := isMinus_ofBitVec (unpackSign b)
  unfold ofFloat? Float.Model.unpack unpack
  dsimp only
  rw [hbits, hb, ← toNat_unpackMantissa, ← toNat_unpackExponent, ← toNat_unpackSign, ← hsign]
  -- the same four cases on either side, told apart by the same field
  by_cases htop : unpackExponent b = -1#11
  · rw [if_pos htop, htop, if_pos (by decide)]
    split <;> rfl
  · have hfield : (unpackExponent b).toNat ≠ 2047 := fun h => htop (BitVec.eq_of_toNat_eq h)
    rw [if_neg hfield, if_neg htop]
    by_cases hzero : unpackExponent b = 0#11
    · rw [if_pos hzero, hzero, if_pos (by decide)]
      split
      · next hmantissa =>
        rw [hmantissa]
        rfl
      · rfl
    · have hfield : (unpackExponent b).toNat ≠ 0 := fun h => hzero (BitVec.eq_of_toNat_eq h)
      rw [if_neg hfield, if_neg hzero, ofUnpacked?, Double.toNat_implicit, Nat.add_comm]
      rfl

/-- A finite double has parts, so the writer has something to write. -/
theorem exists_ofFloat? {x : Float} (h : x.isFinite = true) : ∃ b, ofFloat? x = some b := by
  have hparts : x.toModel.unpack.isFinite = true := h
  rw [ofFloat?_eq]
  cases hx : x.toModel.unpack with
  | finite s m e hm => exact ⟨_, rfl⟩
  | zero s => exact ⟨_, rfl⟩
  | infinity s =>
    rw [hx] at hparts
    exact nomatch hparts
  | notANumber =>
    rw [hx] at hparts
    exact nomatch hparts

end Binary

end Telescope
