import Telescope.Decimal.Fixed
import Telescope.Decimal.Reader
import Telescope.Proofs.ExactParts
import Telescope.Proofs.NumberText
import Telescope.Proofs.Quotients

/-!
# Reading fixed places

A double that is written with six decimal places loses what is beyond the millionths, and the text
is then read as another double. This module says which doubles come back as positive numbers
(`Fixed.exists_read_pos_iff`): the finite ones above half a millionth.

* `Fixed.readFloat?_chars`: the text is read as the number of units that it shows, divided by the
  power of ten;
* `Fixed.units_pos_iff`: something is shown above half a millionth, rounding half to even;
* `Fixed.isPositiveFinite_magnitude`: what is shown is read as a positive number, without underflow
  below and without overflow at the upper end, where the doubles are whole numbers and come back as
  they are.

Six places are enough for energies in MeV, and yet they lose every energy below half an
electronvolt. The bound is not a power of two, so the double that stands for it is a little below.
No double lies between the two, and so it does not matter which of them is meant.
-/

namespace Telescope

open Float.Model (Format UnpackedFloat)
open Float.Model.UnpackedFloat

/-! ## Reading digits

The text with fixed places is the plainest that the reader knows: digits, a point, digits. It has no
exponent, and a sign only in front. -/

/-- The powers of two grow with their exponents. -/
theorem powerOfTwo_mono {a b : Nat} (h : a ≤ b) : powerOfTwo a ≤ powerOfTwo b :=
  Nat.pow_le_pow_right (by decide) h

/-- Zeros in front are worth nothing. -/
theorem digitsFrom_zeros (k : Nat) (digits : List Char) :
    digitsFrom 0 (List.replicate k '0' ++ digits) = digitsFrom 0 digits := by
  induction k with
  | zero => rfl
  | succ k ih => exact ih

namespace Reader

/-- Digits with a decimal point among them. -/
theorem magnitude?_point {whole decimals : List Char} (hwhole : ∀ c ∈ whole, c.isDigit = true)
    (hdecimals : ∀ c ∈ decimals, c.isDigit = true) (hne : whole ≠ []) :
    magnitude? (whole ++ '.' :: decimals) =
      some ⟨false, digitsFrom 0 (whole ++ decimals), -(decimals.length : Int)⟩ := by
  have hfirst : digits (whole ++ '.' :: decimals) = (whole, '.' :: decimals) :=
    digits_of_digits hwhole (by simp)
  have hsecond : digits decimals = (decimals, []) := by
    have hall : digits (decimals ++ []) = (decimals, []) := digits_of_digits hdecimals (by simp)
    rw [List.append_nil] at hall
    exact hall
  have hthird : fraction ('.' :: decimals) = (decimals, []) := hsecond
  have hempty : ¬ (whole.isEmpty = true ∧ decimals.isEmpty = true) := by simp [hne]
  unfold magnitude?
  rw [hfirst]
  dsimp only
  rw [hthird]
  dsimp only
  rw [if_neg hempty, exponent?, Option.map_some, Int.zero_sub]

/-- Digits have no case, so a text of digits is none of the words. -/
theorem toLower_of_isDigit {c : Char} (hc : c.isDigit = true) : c.toLower = c := by
  obtain ⟨-, hhigh⟩ := Char.isDigit_iff_toNat.1 hc
  unfold Char.toLower
  rw [dif_neg]
  rintro ⟨hupper, -⟩
  have hvalue : 65 ≤ c.toNat := UInt32.le_iff_toNat_le.1 hupper
  have hnine : '9'.toNat = 57 := rfl
  omega

/-- A text that starts with a digit has no sign. -/
theorem sign_of_isDigit {c : Char} (hc : c.isDigit = true) (rest : List Char) :
    sign (c :: rest) = (false, c :: rest) := by
  unfold sign
  split
  · next heq =>
    rw [(List.cons.inj heq).1] at hc
    exact absurd hc (by decide)
  · next heq =>
    rw [(List.cons.inj heq).1] at hc
    exact absurd hc (by decide)
  · rfl

/-- A text that starts with a digit is none of the words for infinity and NaN. -/
theorem word?_of_isDigit {c : Char} (hc : c.isDigit = true) (rest : List Char) :
    word? (c :: rest) = none := by
  have hletter : ∀ {l : Char} {letters : List Char}, l.isDigit = false →
      List.map Char.toLower (c :: rest) ≠ l :: letters := by
    intro l letters hl heq
    rw [List.map_cons, toLower_of_isDigit hc] at heq
    rw [← (List.cons.inj heq).1, hc] at hl
    exact Bool.false_ne_true hl.symm
  unfold word?
  split
  · next heq => exact absurd heq (hletter (by decide))
  · next heq => exact absurd heq (hletter (by decide))
  · next heq => exact absurd heq (hletter (by decide))
  · rfl

end Reader

namespace Fixed

/-- The units of the last place that are shown: the value in these units, rounded to a whole number. -/
def units (places : Nat) (b : Binary) : Nat :=
  roundDiv (b.fraction.1 * powerOfTen places) b.fraction.2

/-- The sign does not matter, since it is written in front. -/
theorem units_eq (places : Nat) (b : Binary) :
    units places b = units places ⟨false, b.mantissa, b.exponent⟩ := rfl

/-- A number is written as its sign and its units. The two values that are no numbers are written as
words. -/
theorem chars_of_ofFloat? {x : Float} {b : Binary} (h : Binary.ofFloat? x = some b) (places : Nat) :
    chars places x = (if b.negative then ['-'] else []) ++ placed places (units places b) := by
  unfold chars
  rw [h]
  rfl

/-- A whole number of units is written with as many decimals as there are places. If it has fewer
digits, zeros are put in front, and one of them before the point. -/
theorem exists_placed {places : Nat} (hplaces : places ≠ 0) (n : Nat) :
    ∃ whole decimals, placed places n = whole ++ '.' :: decimals ∧ whole ≠ [] ∧
      (∀ c ∈ whole, c.isDigit = true) ∧ (∀ c ∈ decimals, c.isDigit = true) ∧
      decimals.length = places ∧ digitsFrom 0 (whole ++ decimals) = n := by
  obtain ⟨padded, hpadded⟩ : ∃ padded, List.replicate
      (places + 1 - (Nat.toDigits 10 n).length) '0' ++ Nat.toDigits 10 n = padded := ⟨_, rfl⟩
  have hdigits : ∀ c ∈ padded, c.isDigit = true := by
    intro c hc
    rw [← hpadded] at hc
    obtain hzero | hdigit := List.mem_append.1 hc
    · exact isDigit_of_mem_zeros hzero
    · exact isDigit_of_mem_toDigits hdigit
  have hlength : places + 1 ≤ padded.length := by
    rw [← hpadded, List.length_append, List.length_replicate]
    omega
  refine ⟨padded.take (padded.length - places), padded.drop (padded.length - places), ?_, ?_,
    fun c hc => hdigits c (List.mem_of_mem_take hc),
    fun c hc => hdigits c (List.mem_of_mem_drop hc), ?_, ?_⟩
  · unfold placed
    dsimp only
    rw [if_neg hplaces, hpadded]
  · rw [← List.length_pos_iff, List.length_take]
    omega
  · rw [List.length_drop]
    omega
  · rw [List.take_append_drop, ← hpadded, digitsFrom_zeros, digitsFrom_toDigits]

/-- Fixed places are read as the number of units that they show. A sign in front is taken off and
put back, and nothing else stands there. -/
theorem readFloat?_chars {x : Float} {b : Binary} (h : Binary.ofFloat? x = some b) {places : Nat}
    (hplaces : places ≠ 0) :
    readFloat? (chars places x) =
      some (if b.negative then -Decimal.magnitude ⟨false, units places b, -places⟩
        else Decimal.magnitude ⟨false, units places b, -places⟩) := by
  obtain ⟨whole, decimals, hplaced, hne, hwhole, hdecimals, hlength, hvalue⟩ :=
    exists_placed hplaces (units places b)
  obtain ⟨c, rest, rfl⟩ := List.exists_cons_of_ne_nil hne
  have hc : c.isDigit = true := hwhole c List.mem_cons_self
  have hread : (Reader.word? (placed places (units places b))).or
      ((Reader.magnitude? (placed places (units places b))).map Decimal.toFloat) =
        some (Decimal.magnitude ⟨false, units places b, -places⟩) := by
    rw [hplaced, Reader.magnitude?_point hwhole hdecimals hne, List.cons_append,
      Reader.word?_of_isDigit hc, hvalue, hlength]
    rfl
  have hsign : Reader.sign ((if b.negative then ['-'] else []) ++ placed places (units places b)) =
      (b.negative, placed places (units places b)) := by
    cases b.negative with
    | true => rfl
    | false =>
      rw [hplaced, List.cons_append]
      exact Reader.sign_of_isDigit hc _
  unfold readFloat?
  rw [chars_of_ofFloat? h, hsign]
  dsimp only
  rw [hread, Option.map_some]

/-! ## Millionths

A million divides into doubles without trouble: the reader looks at the size of a decimal only if it
has more digits than any double. This leaves one division, and with it one rounding. -/

/-- A number below a power of ten has no more digits than that has zeros. -/
theorem digitCount_le {n k : Nat} (hk : 0 < k) (hlt : n < powerOfTen k) : digitCount n ≤ k :=
  (Nat.length_toDigits_le_iff (by decide) hk).2 hlt

/-- Numbers of at most 316 digits are divided without looking at their size. -/
theorem magnitude_millionths {n : Nat} (hpos : 0 < n) (hcount : digitCount n ≤ 316) :
    Decimal.magnitude ⟨false, n, -(6 : Nat)⟩ = Float.ofScientific n true 6 := by
  have hgreat : ¬ Decimal.point ⟨false, n, -(6 : Nat)⟩ > 310 := by
    unfold Decimal.point
    dsimp only
    omega
  have hsmall : ¬ Decimal.point ⟨false, n, -(6 : Nat)⟩ < -330 := by
    unfold Decimal.point
    dsimp only
    omega
  unfold Decimal.magnitude
  rw [if_neg (Nat.ne_of_gt hpos), if_neg hgreat, if_neg hsmall, if_pos (by dsimp only; omega)]
  rfl

/-- The double next to half a millionth, from below. -/
theorem unpack_halfMillionth :
    (5e-7 : Float).toModel.unpack = .finite .positive 4722366482869645 (-73) (by decide) := by
  rfl

/-- A quotient is rounded to something if it is more than a half. A half itself is rounded to the
even neighbour, which is nothing. -/
theorem roundDiv_pos_iff {num den : Nat} (hden : 0 < den) :
    0 < roundDiv num den ↔ den < 2 * num := by
  obtain ⟨hup, hdown⟩ := roundDiv_near num den hden
  by_cases hless : num < den
  · have hquotient : num / den = 0 := Nat.div_eq_of_lt hless
    have hrest : num % den = num := Nat.mod_eq_of_lt hless
    unfold roundDiv
    dsimp only
    rw [hquotient, hrest]
    split
    · omega
    · split <;> simp <;> omega
  · constructor
    · intro
      omega
    · intro
      rcases Nat.eq_zero_or_pos (roundDiv num den) with hzero | hpos
      · rw [hzero] at hdown
        omega
      · exact hpos

/-- Rounding a quotient does not exceed the numerator. -/
theorem roundDiv_le (num : Nat) {den : Nat} (hden : 0 < den) : roundDiv num den ≤ num := by
  obtain ⟨hup, -⟩ := roundDiv_near num den hden
  by_contra hgreater
  have hnext : (num + 1) * den ≤ roundDiv num den * den :=
    Nat.mul_le_mul_right den (Nat.lt_of_not_le hgreater)
  have hexpand : (num + 1) * den = num * den + den := Nat.add_one_mul num den
  have hself : num ≤ num * den := Nat.le_mul_of_pos_right num hden
  omega

/-- A whole number needs no rounding. -/
theorem roundDiv_one (num : Nat) : roundDiv num 1 = num := by
  unfold roundDiv
  dsimp only
  rw [Nat.div_one, Nat.mod_one, if_pos (by decide)]

variable {x : Float} {m : Nat} {e : Int} {hpos : 0 < m}

/-- Being above half a millionth is read from the parts: a greater exponent, or the same with more
bits. -/
theorem halfMillionth_lt_iff (hx : x.toModel.unpack = .finite .positive m e hpos) :
    5e-7 < x ↔ -73 < e ∨ e = -73 ∧ 4722366482869645 < m := by
  rw [Double.lt_iff, unpack_halfMillionth, hx]
  simp only [UnpackedFloat.lt, UnpackedFloat.compare, beq_iff_eq, Option.some.injEq,
    Ordering.then_eq_lt, Int.compare_eq_lt, Nat.compare_eq_lt, Int.compare_eq_eq]
  omega

/-- **Half a millionth.** A positive number shows something exactly if it is above this. -/
theorem units_pos_iff (hx : x.toModel.unpack = .finite .positive m e hpos) :
    0 < units 6 ⟨false, m, e⟩ ↔ 5e-7 < x := by
  obtain ⟨hmost, hleast⟩ := Double.mantissa_of_canonical (hx ▸ Double.canonical_unpack x.toModel)
  have hmillion : powerOfTen 6 = 1000000 := rfl
  rw [halfMillionth_lt_iff hx]
  unfold units Binary.fraction
  dsimp only
  rw [roundDiv_pos_iff (powerOfTwo_pos _), hmillion]
  obtain ⟨den, hden⟩ : ∃ den, powerOfTwo (-e).toNat = den := ⟨_, rfl⟩
  obtain ⟨scale, hscale⟩ : ∃ scale, m * powerOfTwo e.toNat = scale := ⟨_, rfl⟩
  rw [hden, hscale]
  rcases Int.lt_trichotomy e (-73) with hless | rfl | hgreater
  · -- the greatest mantissa is not enough
    have hscale' : scale = m := by
      rw [← hscale, Int.toNat_of_nonpos (by omega), powerOfTwo_zero, Nat.mul_one]
    have hden' : 2 ^ 74 ≤ den := by
      rw [← hden]
      exact Nat.pow_le_pow_right (by decide) (by omega)
    omega
  · have hscale' : scale = m := by
      rw [← hscale]
      exact Nat.mul_one m
    have hden' : den = 2 ^ 73 := hden.symm
    omega
  · -- the least mantissa is enough
    have hscale' : m ≤ scale := by
      rw [← hscale]
      exact Nat.le_mul_of_pos_right m (powerOfTwo_pos _)
    have hden' : den ≤ 2 ^ 72 := by
      rw [← hden]
      exact Nat.pow_le_pow_right (by decide) (by omega)
    have hfull := hleast (by omega)
    omega

/-- What is shown of a number, if anything, is read as a positive number, its sign aside. From a
power of two on doubles are whole numbers, whose text is exact; below it the quotient is far from
both ends. -/
theorem isPositiveFinite_magnitude {s : Sign} (hx : x.toModel.unpack = .finite s m e hpos)
    (hunits : 0 < units 6 ⟨false, m, e⟩) :
    Double.IsPositiveFinite (Decimal.magnitude ⟨false, units 6 ⟨false, m, e⟩, -(6 : Nat)⟩) := by
  have hcanonical := Double.canonical_unpack x.toModel
  have hrange := Double.inRange_unpack x.toModel
  rw [hx] at hcanonical hrange
  have hrange : e ≤ 971 := hrange
  obtain ⟨hmost, hleast⟩ := Double.mantissa_of_canonical hcanonical
  have hmillion : powerOfTen 6 = 1000000 := rfl
  -- a number with a fraction is below 2 ^ 53; a whole one may be as great as a double can be
  by_cases hnegative : e < 0
  · have hlt : units 6 ⟨false, m, e⟩ < 2 ^ 73 := by
      have hle := roundDiv_le (m * powerOfTwo e.toNat * powerOfTen 6) (powerOfTwo_pos (-e).toNat)
      have hscale : powerOfTwo e.toNat = 1 := by
        rw [Int.toNat_of_nonpos (by omega), powerOfTwo_zero]
      unfold units Binary.fraction
      dsimp only
      rw [hscale, hmillion] at hle ⊢
      omega
    have hcount : digitCount (units 6 ⟨false, m, e⟩) ≤ 22 :=
      digitCount_le (by decide) (Nat.lt_trans hlt (by decide))
    rw [magnitude_millionths hunits (by omega)]
    exact Double.isPositiveFinite_millionths hunits (by omega)
  · obtain ⟨k, rfl⟩ := Int.eq_ofNat_of_zero_le (Int.not_lt.1 hnegative)
    have hvalue : units 6 ⟨false, m, k⟩ = m * 2 ^ k * 10 ^ 6 := by
      have hone : powerOfTwo (-(k : Int)).toNat = 1 := by
        rw [Int.toNat_of_nonpos (by omega), powerOfTwo_zero]
      unfold units Binary.fraction
      dsimp only
      rw [hone, roundDiv_one]
      rfl
    have hcount : digitCount (units 6 ⟨false, m, k⟩) ≤ 316 := by
      refine digitCount_le (by decide) ?_
      have hpow : 2 ^ k ≤ powerOfTwo 971 := powerOfTwo_mono (by omega)
      calc units 6 ⟨false, m, k⟩ = m * 2 ^ k * 10 ^ 6 := hvalue
        _ ≤ 2 ^ 53 * powerOfTwo 971 * 10 ^ 6 :=
          Nat.mul_le_mul_right _ (Nat.mul_le_mul (Nat.le_of_lt hmost) hpow)
        _ < powerOfTen 316 := by decide +kernel
    rw [magnitude_millionths hunits hcount]
    rw [hvalue] at hunits ⊢
    -- its millionths are divided by a million again, as doubles or as whole numbers
    by_cases hsmall : m * 2 ^ k * 10 ^ 6 < 2 ^ 53
    · exact Double.isPositiveFinite_millionths hunits (by omega)
    · have hcanonical' : Double.Canonical (.finite .positive m k hpos) := hcanonical
      rw [Double.ofScientific_whole hcanonical' (by omega)]
      exact ⟨m, k, hpos,
        Double.unpack_pack_normal .positive ⟨hleast (by omega), hmost⟩ hpos (by omega) hrange⟩

/-- The texts of infinity and NaN are read as such. -/
theorem not_exists_read_of_none {places : Nat} (h : Binary.ofFloat? x = none) :
    ¬ ∃ y, readFloat? (chars places x) = some y ∧ y.isFinite = true ∧ 0.0 < y := by
  rintro ⟨y, hy, hfinite, -⟩
  have htexts : ∀ text ∈ ["NaN".toList, "-inf".toList, "inf".toList],
      (readFloat? text).all fun y => !y.isFinite := by
    decide +kernel
  have hmem : chars places x ∈ ["NaN".toList, "-inf".toList, "inf".toList] := by
    unfold chars
    rw [h]
    dsimp only
    split
    · simp
    · split <;> simp
  have hall := htexts _ hmem
  rw [hy, Option.all_some, hfinite] at hall
  exact absurd hall Bool.false_ne_true

/-- Nothing is read as zero, whatever the exponent. -/
theorem magnitude_zero {n : Nat} (h : n = 0) (exponent : Int) :
    Decimal.magnitude ⟨false, n, exponent⟩ = 0.0 := by
  rw [Decimal.magnitude, if_pos h]

/-- Zero has no units. -/
theorem units_zero (places : Nat) (negative : Bool) (e : Int) :
    units places ⟨negative, 0, e⟩ = 0 := by
  unfold units Binary.fraction
  dsimp only
  rw [Nat.zero_mul, Nat.zero_mul]
  exact Nat.le_zero.1 (roundDiv_le 0 (powerOfTwo_pos _))

/-- If nothing is shown, zero is read, with either sign. -/
theorem not_read_pos_of_units {b : Binary} (hb : Binary.ofFloat? x = some b)
    (hunits : units 6 b = 0) {y : Float} (hy : readFloat? (chars 6 x) = some y) : ¬ 0.0 < y := by
  have hnone : ∀ negative : Bool, ¬ 0.0 < if negative then -(0.0 : Float) else 0.0 := by
    decide +kernel
  rw [readFloat?_chars hb (by decide), magnitude_zero hunits] at hy
  rw [← Option.some.inj hy]
  exact hnone b.negative

/-- What is read is positive if the sign is plus and something is shown. Of a negative number not
more than zero can be read. -/
theorem exists_read_pos_of_finite {s : Sign} (hx : x.toModel.unpack = .finite s m e hpos) :
    (∃ y, readFloat? (chars 6 x) = some y ∧ y.isFinite = true ∧ 0.0 < y) ↔
      s = .positive ∧ 0 < units 6 ⟨false, m, e⟩ := by
  have hb := Binary.ofFloat?_eq x
  rw [hx, Binary.ofUnpacked?] at hb
  have hread := readFloat?_chars hb (by decide : 6 ≠ 0)
  have hunits := units_eq 6 ⟨Binary.isMinus s, m, e⟩
  rw [hunits] at hread
  constructor
  · rintro ⟨y, hy, -, hpositive⟩
    have hpos : 0 < units 6 ⟨false, m, e⟩ :=
      Nat.pos_of_ne_zero fun hzero => not_read_pos_of_units hb (hunits.trans hzero) hy hpositive
    refine ⟨?_, hpos⟩
    cases s with
    | positive => rfl
    | negative =>
      -- the minus sign is shown, and read
      rw [hread, Binary.isMinus, if_pos rfl] at hy
      rw [← Option.some.inj hy] at hpositive
      exact absurd hpositive (Double.not_pos_neg (isPositiveFinite_magnitude hx hpos))
  · rintro ⟨rfl, hpos⟩
    rw [Binary.isMinus, if_neg Bool.false_ne_true] at hread
    exact ⟨_, hread, Double.isFinite_and_pos (isPositiveFinite_magnitude hx hpos)⟩

/-- **Six decimal places.** A double is read back as a positive number if and only if it is finite
and above half a millionth. -/
theorem exists_read_pos_iff (x : Float) :
    (∃ y, readFloat? (write 6 x).toList = some y ∧ y.isFinite = true ∧ 0.0 < y) ↔
      x.isFinite = true ∧ 5e-7 < x := by
  have hb := Binary.ofFloat?_eq x
  have hfinite : x.isFinite = x.toModel.unpack.isFinite := rfl
  rw [write, String.toList_ofList, hfinite, Double.lt_iff, unpack_halfMillionth]
  -- only the positive numbers need the bound; the others are not read as positive ones
  cases hx : x.toModel.unpack with
  | finite s m e hpos =>
    rw [exists_read_pos_of_finite hx]
    cases s with
    | positive =>
      rw [units_pos_iff hx, Double.lt_iff, unpack_halfMillionth, hx]
      exact ⟨fun h => ⟨rfl, h.2⟩, fun h => ⟨rfl, h.2⟩⟩
    | negative => simp [UnpackedFloat.lt, UnpackedFloat.compare]
  | zero s =>
    rw [hx] at hb
    have hunits := units_zero 6 (Binary.isMinus s) Binary.leastExponent
    constructor
    · rintro ⟨y, hy, -, hpositive⟩
      exact absurd hpositive (not_read_pos_of_units hb hunits hy)
    · rintro ⟨-, h⟩
      exact absurd h Bool.false_ne_true
  | infinity s =>
    rw [hx] at hb
    exact iff_of_false (not_exists_read_of_none hb) fun h => absurd h.1 Bool.false_ne_true
  | notANumber =>
    rw [hx] at hb
    exact iff_of_false (not_exists_read_of_none hb) fun h => absurd h.1 Bool.false_ne_true

end Fixed

end Telescope
