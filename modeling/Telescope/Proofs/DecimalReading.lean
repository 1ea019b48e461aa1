import Telescope.Proofs.PlainNumbers
import Telescope.Proofs.SquareRoots

/-!
# Reading decimals

A decimal is read as the double that it is rounded to, whatever its digits and its exponent: few digits
are multiplied with or divided by a power of ten that is a double, others as whole numbers, and what is
too great or too small for a double is told apart before. So no decimal is rounded twice.

* `isRounded_ofScientific`: both ways of reading digits with an exponent round once;
* `Decimal.isRounded_magnitude`: the same for all decimals;
* `Binary.Rounds.nearest_eq`: the interval of a double, from which its shortest decimal is taken, is made
  of the numbers that are rounded to it;
* `readFloat?_plain`: so the plain text of a positive double is read as this double, and the word for
  infinity as infinity (`readFloat?_plain_of_pos`).

The bounds for what is too great or too small are generous. They only keep the powers from getting
long, and whatever is inside them is rounded by one division of whole numbers.
-/

namespace Telescope

namespace Double

open Float.Model (Format UnpackedFloat totalExponent)
open Float.Model.UnpackedFloat

/-! ## Whole numbers and powers of ten

The fast way needs both numbers to be doubles without rounding. Digits of 53 bits are, and so are
the powers of ten up to the twenty-second. -/

/-- Numbers of 53 bits are doubles, unless they are too great. -/
theorem rounded_of_multiple {q : ℚ} {k e : ℤ} (h : q = k * 2 ^ e) (hk : |k| < 2 ^ 53) (he : -1074 ≤ e)
    (hlimit : |q| < limit) : rounded q = q := by
  obtain ⟨hlow, hhigh⟩ := abs_lt.1 hlimit
  rw [rounded, nearest_of_multiple h hk he, min_eq_left hhigh.le, max_eq_right hlow.le]

/-- A whole number is rounded. -/
theorem isRounded_toFloat (n : UInt64) : IsRounded n.toNat n.toFloat := by
  have hround := isRounded_pack (isNearest_normalize n.toNat 0 .positive)
  have hself : ((n.toNat : ℤ) : ℚ) * 2 ^ (0 : ℤ) = n.toNat := by simp
  rw [hself] at hround
  exact hround

/-- And kept if it has 53 bits, since rounding leaves such numbers alone. -/
theorem exactly_toFloat {n : ℕ} (h : n < 2 ^ 53) : Exactly n.toUInt64.toFloat n := by
  have hround := isRounded_toFloat n.toUInt64
  have hn : n.toUInt64.toNat = n := UInt64.toNat_ofNat_of_lt' (by change n < 2 ^ 64; omega)
  rw [hn] at hround
  have hlimit : |(n : ℚ)| < limit := by
    have hbits : (n : ℚ) < 2 ^ (53 : ℤ) := by exact_mod_cast h
    rw [Nat.abs_cast]
    exact hbits.trans (zpow_lt_zpow_right₀ one_lt_two (by decide))
  have hbits : |(n : ℤ)| < 2 ^ 53 := by
    rw [Nat.abs_cast]
    exact_mod_cast h
  have hvalue : value n.toUInt64.toFloat = n :=
    hround.value_eq.trans (rounded_of_multiple (k := n) (e := 0) (by simp) hbits (by decide) hlimit)
  refine ⟨?_, hvalue⟩
  rwa [isFinite_iff hround.isNaN, hvalue]

/-- The powers of ten of the table are doubles. -/
theorem exactly_powerOfTen :
    ∀ e : Fin 23, Exactly Float.exactlyRepresentablePowersOfTen[e.val] (10 ^ e.val) := by
  decide +kernel

/-- Digits with an exponent, taken as whole numbers. A negative exponent is a division by a power of
ten, and the numerator is shifted up until the quotient has all bits that a double needs. -/
theorem isNearest_ofScientific {m : ℕ} (hm : 0 < m) {e : ℤ} (hlow : -(2048 + m.log2 : ℤ) ≤ e)
    (hhigh : e ≤ 2048) :
    IsNearest (m * 10 ^ e) (UnpackedFloat.ofScientific Format.binary64 m e) := by
  have hmost : ¬ e > 2 ^ Format.binary64.exponentBits := by
    change ¬ e > 2048
    omega
  have hleast : ¬ e < -(2 ^ Format.binary64.exponentBits + m.log2 : ℤ) := by
    change ¬ e < -(2048 + m.log2 : ℤ)
    omega
  unfold UnpackedFloat.ofScientific
  rw [dif_neg hm.ne', if_neg hmost, if_neg hleast]
  split
  · next hnonneg =>
    obtain ⟨n, rfl⟩ := Int.eq_ofNat_of_zero_le hnonneg
    -- the digits are given 53 more bits, so that the product has all that are needed
    obtain ⟨wide, hwide⟩ : ∃ wide, m <<< Format.binary64.mantissaBits = wide := ⟨_, rfl⟩
    have hshift : wide = m * 2 ^ 53 := hwide.symm.trans (Nat.shiftLeft_eq m 53)
    have hpos : 0 < wide := by
      rw [hshift]
      positivity
    have hbits : 52 ≤ (wide * 10 ^ n).log2 := by
      rw [Nat.le_log2 (by positivity), hshift]
      calc 2 ^ 52 ≤ 2 ^ 53 := by decide
        _ ≤ m * 2 ^ 53 := Nat.le_mul_of_pos_left _ hm
        _ ≤ m * 2 ^ 53 * 10 ^ n := Nat.le_mul_of_pos_right _ (by positivity)
    have hvalue : (wide * 2 ^ (-53 : ℤ) * ((10 ^ n : ℕ) * 2 ^ (0 : ℤ)) : ℚ) = m * 10 ^ (n : ℤ) := by
      rw [hshift, zpow_neg, zpow_ofNat, zpow_natCast]
      push_cast
      field_simp
      norm_num
    have hmul := isNearest_mul_finite .positive .positive (e := -53) (d := 0) hpos
      (Nat.pow_pos (by decide : 0 < 10) : 0 < 10 ^ n) (.inl hbits)
    rw [← hvalue]
    subst hwide
    exact hmul
  · next hneg =>
    obtain ⟨n, rfl⟩ : ∃ n : ℕ, e = -n := ⟨(-e).toNat, by omega⟩
    have hpos : 0 < 10 ^ (-(-(n : ℤ))).toNat := Nat.pow_pos (by decide)
    have hexponent : (-(-(n : ℤ))).toNat = n := by omega
    have hvalue : (m * 2 ^ (0 : ℤ) / ((10 ^ (-(-(n : ℤ))).toNat : ℕ) * 2 ^ (0 : ℤ)) : ℚ) =
        m * 10 ^ (-(n : ℤ)) := by
      rw [hexponent, zpow_neg, zpow_natCast, zpow_zero]
      push_cast
      field_simp
    have hne : exactValue (.finite .positive (10 ^ (-(-(n : ℤ))).toNat) 0 hpos) ≠ 0 := by
      change (((10 ^ (-(-(n : ℤ))).toNat : ℕ) : ℚ) * 2 ^ (0 : ℤ)) ≠ 0
      positivity
    rw [← hvalue]
    exact isNearest_div (a := .finite .positive m 0 hm) rfl rfl hne

/-- **Digits with an exponent are rounded once**, both ways. Few digits and a small exponent are one
product or quotient of doubles, and that is rounded like any other. -/
theorem isRounded_ofScientific {m k : ℕ} (hm : 0 < m) (s : Bool) {e : ℤ}
    (he : (if s = true then Int.negOfNat k else Int.ofNat k) = e)
    (hlow : -(2048 + m.log2 : ℤ) ≤ e) (hhigh : e ≤ 2048) :
    IsRounded (m * 10 ^ e) (Float.ofScientific m s k) := by
  unfold Float.ofScientific
  split
  · next hexact =>
    have hdigits := exactly_toFloat hexact.1
    have hpower := exactly_powerOfTen ⟨k, by omega⟩
    cases s with
    | true =>
      have hne : (10 ^ k : ℚ) ≠ 0 := by positivity
      have hdiv := isRounded_div hdigits.isFinite hpower.isFinite (hpower.value_eq ▸ hne)
      have hvalue : (m * 10 ^ Int.negOfNat k : ℚ) = m / 10 ^ k := by
        rw [Int.negOfNat_eq, zpow_neg, Int.ofNat_eq_natCast, zpow_natCast, div_eq_mul_inv]
      rw [hdigits.value_eq, hpower.value_eq] at hdiv
      subst he
      rw [if_pos rfl, hvalue]
      exact hdiv
    | false =>
      have hmul := isRounded_mul hdigits.isFinite hpower.isFinite
      rw [hdigits.value_eq, hpower.value_eq] at hmul
      subst he
      rw [if_neg Bool.false_ne_true, Int.ofNat_eq_natCast, zpow_natCast]
      exact hmul
  · next hwhole =>
    dsimp only
    rw [he]
    exact isRounded_pack (isNearest_ofScientific hm hlow hhigh)

end Double

/-! ## Decimals

A decimal is read by its digits and its exponent, unless its size alone tells that it is too great
or too small. In each case what comes out is the exact value rounded once. -/

namespace Decimal

open Double

/-- A decimal has as many digits in front of its last one as its size allows. -/
theorem digitCount_le_log2 {n : ℕ} (hn : 0 < n) : digitCount n - 1 ≤ n.log2 := by
  rw [Nat.le_log2 hn.ne']
  exact (Nat.pow_le_pow_left (by decide) _).trans (Binary.le_of_digitCount hn)

/-- The decimal point tells the size of a decimal. So what lies beyond the limits can be told
without its value. -/
theorem absValue_bounds (d : Decimal) (hd : 0 < d.digits) :
    (10 : ℚ) ^ (d.point - 1) ≤ d.absValue ∧ d.absValue < 10 ^ d.point := by
  have hten : (10 : ℚ) ≠ 0 := by norm_num
  have hcount := digitCount_pos d.digits
  have hlow : ((10 ^ (digitCount d.digits - 1) : ℕ) : ℚ) ≤ d.digits := by
    exact_mod_cast Binary.le_of_digitCount hd
  have hhigh : (d.digits : ℚ) < ((10 ^ digitCount d.digits : ℕ) : ℚ) := by
    exact_mod_cast Binary.lt_of_digitCount d.digits
  have hsplit : d.point - 1 = (digitCount d.digits - 1 : ℕ) + d.exponent := by
    rw [point]
    omega
  rw [hsplit, point, zpow_add₀ hten, zpow_add₀ hten, zpow_natCast, zpow_natCast, absValue]
  push_cast at hlow hhigh
  exact ⟨mul_le_mul_of_nonneg_right hlow (by positivity), mul_lt_mul_of_pos_right hhigh (by positivity)⟩

/-- **Decimals are rounded once.** Those that are too great or too small for a double are rounded to
infinity and to zero, as their exact values would be. -/
theorem isRounded_magnitude (d : Decimal) : IsRounded d.absValue d.magnitude := by
  unfold magnitude
  split
  · next hzero =>
    rw [absValue, hzero, Nat.cast_zero, zero_mul, ← exactly_zero.value_eq]
    exact ⟨(rounded_value exactly_zero.isNaN).symm, exactly_zero.isNaN⟩
  next hdigits =>
  have hpos : 0 < d.digits := Nat.pos_of_ne_zero hdigits
  obtain ⟨hlow, hhigh⟩ := d.absValue_bounds hpos
  have hone : (1 : ℚ) ≤ 10 := by norm_num
  split
  · next hgreat =>
    -- both are infinite
    have hlimit : limit ≤ (10 : ℚ) ^ (310 : ℤ) := by
      have hnat : 2 ^ 1024 ≤ 10 ^ 310 := by decide +kernel
      rw [limit, zpow_ofNat, zpow_ofNat]
      exact_mod_cast hnat
    have hinfinite : IsRounded ((1 : ℕ) * 10 ^ (400 : ℤ)) (Float.ofScientific 1 false 400) :=
      isRounded_ofScientific Nat.one_pos false rfl (by decide) (by decide)
    have hrounded : rounded ((1 : ℕ) * 10 ^ (400 : ℤ)) = rounded d.absValue := by
      rw [rounded_of_limit_le, rounded_of_limit_le]
      · exact hlimit.trans ((zpow_le_zpow_right₀ hone (by omega)).trans hlow)
      · rw [Nat.cast_one, one_mul]
        exact hlimit.trans (zpow_le_zpow_right₀ hone (by decide))
    exact ⟨hrounded ▸ hinfinite.value_eq, hinfinite.isNaN⟩
  split
  · next hsmall =>
    have hleast : (10 : ℚ) ^ (-330 : ℤ) ≤ 2 ^ (-1075 : ℤ) := by
      have hnat : 2 ^ 1075 ≤ 10 ^ 330 := by decide +kernel
      rw [zpow_neg, zpow_neg, zpow_ofNat, zpow_ofNat]
      exact inv_anti₀ (by positivity) (by exact_mod_cast hnat)
    have hvanish : nearest d.absValue = 0 := by
      apply nearest_of_small
      · exact lt_of_lt_of_le (by positivity) hlow
      · exact hhigh.trans_le ((zpow_le_zpow_right₀ hone (by omega)).trans hleast)
    refine ⟨?_, exactly_zero.isNaN⟩
    rw [rounded, hvanish, exactly_zero.value_eq, min_eq_left limit_pos.le,
      max_eq_right (by linarith [limit_pos])]
  next hmost hleast =>
  have hlog := digitCount_le_log2 hpos
  have hcount := digitCount_pos d.digits
  rw [point] at hmost hleast
  have hexponent : -(2048 + d.digits.log2 : ℤ) ≤ d.exponent ∧ d.exponent ≤ 2048 := by omega
  split
  · next hneg =>
    have hsign : Int.negOfNat d.exponent.natAbs = d.exponent := by
      rw [Int.negOfNat_eq, Int.ofNat_eq_natCast]
      omega
    exact isRounded_ofScientific hpos true hsign hexponent.1 hexponent.2
  · next hnonneg =>
    have hsign : Int.ofNat d.exponent.natAbs = d.exponent := by
      rw [Int.ofNat_eq_natCast]
      omega
    exact isRounded_ofScientific hpos false hsign hexponent.1 hexponent.2

end Decimal

/-! ## The interval of a double

What was shown about the search for the shortest decimal is about an interval. Here the interval is
shown to be what rounding sends to the double; so what is found is read back. -/

open Double

namespace Binary

variable {b : Binary} {q : ℚ}

/-- The interval in units of the last place. It reaches half a unit to either side, and a quarter
below a power of two. -/
theorem Rounds.bounds (hq : b.Rounds q) :
    q ≤ (b.mantissa + 1 / 2) * 2 ^ b.exponent ∧
    (b.mantissa - 1 / 2) * 2 ^ b.exponent ≤ q ∧
    (b.mantissa = 2 ^ 52 → -1074 < b.exponent → (b.mantissa - 1 / 4) * 2 ^ b.exponent ≤ q) ∧
    (b.mantissa % 2 = 1 →
      (b.mantissa - 1 / 2) * 2 ^ b.exponent < q ∧ q < (b.mantissa + 1 / 2) * 2 ^ b.exponent) := by
  have hquarter : (2 : ℚ) ^ (b.exponent - 2) = 2 ^ b.exponent / 4 := by
    rw [zpow_sub₀ two_ne_zero]
    norm_num
  have hupper : (b.interval.upper : ℚ) * 2 ^ (b.exponent - 2) =
      (b.mantissa + 1 / 2) * 2 ^ b.exponent := by
    rw [upper_eq, hquarter]
    push_cast
    ring
  have hlower : (b.mantissa - 1 / 2) * 2 ^ b.exponent ≤
      (b.interval.lower : ℚ) * 2 ^ (b.exponent - 2) := by
    have hle : ((4 * b.mantissa : ℕ) : ℚ) ≤ ((b.interval.lower + 2 : ℕ) : ℚ) := by
      exact_mod_cast b.le_lower
    have hscaled := mul_le_mul_of_nonneg_right hle (by positivity : (0 : ℚ) ≤ 2 ^ (b.exponent - 2))
    push_cast at hscaled
    rw [hquarter] at hscaled ⊢
    linarith
  -- below a power of two the lower end is closer
  have hnarrow : b.mantissa = 2 ^ 52 → -1074 < b.exponent →
      (b.mantissa - 1 / 4) * 2 ^ b.exponent ≤ (b.interval.lower : ℚ) * 2 ^ (b.exponent - 2) := by
    intro hmantissa hexponent
    have hlower : b.interval.lower = 4 * 2 ^ 52 - 1 := by
      unfold interval
      rw [hmantissa]
      exact congrArg _ (if_pos ⟨rfl, hexponent.ne'⟩)
    rw [hlower, hquarter, hmantissa]
    push_cast
    apply le_of_eq
    ring
  obtain ⟨hlow, hhigh⟩ := hq.between
  refine ⟨hhigh.trans_eq hupper, hlower.trans hlow, fun h h' => (hnarrow h h').trans hlow, ?_⟩
  intro hodd
  obtain ⟨hlow, hhigh⟩ := hq.inside hodd
  exact ⟨hlower.trans_lt hlow, hhigh.trans_eq hupper⟩

/-- **What lies in the interval of a double is rounded to it.** Below a power of two the last place
is half as great, so there the double is taken with one more bit. -/
theorem Rounds.nearest_eq (hq : b.Rounds q) (hb : b.Canonical) :
    nearest q = b.mantissa * 2 ^ b.exponent := by
  obtain ⟨hhigh, hlow, hnarrow, hodd⟩ := hq.bounds
  have hpos := hq.pos hb
  have hleast : -1074 ≤ b.exponent := hb.least
  have hunit : (0 : ℚ) < 2 ^ b.exponent := by positivity
  have hbelow : q < 2 ^ 53 * 2 ^ b.exponent := by
    have hbits : (b.mantissa : ℚ) + 1 ≤ 2 ^ 53 := by exact_mod_cast hb.lt
    have hscaled := mul_le_mul_of_nonneg_right hbits hunit.le
    linarith
  by_cases habove : -1074 < b.exponent → 2 ^ 52 * 2 ^ b.exponent ≤ q
  · exact nearest_eq_mul (lastPlace_eq hleast hpos hbelow habove) hlow hhigh hodd
  · -- only below a power of two, where the last place is half as great
    rw [Classical.not_imp, not_le] at habove
    obtain ⟨hlt, hless⟩ := habove
    have hmantissa : b.mantissa = 2 ^ 52 := by
      have hfull := hb.full hlt
      have hscaled : ((b.mantissa : ℚ) - 1 / 2) < 2 ^ 52 :=
        lt_of_mul_lt_mul_right (hlow.trans_lt hless) hunit.le
      have hupper : (b.mantissa : ℚ) < (2 ^ 52 + 1 : ℕ) := by
        push_cast
        linarith
      have hupper' : b.mantissa < 2 ^ 52 + 1 := by exact_mod_cast hupper
      omega
    have hhalf : (2 : ℚ) ^ b.exponent = 2 ^ (b.exponent - 1) * 2 := by
      rw [← zpow_add_one₀ two_ne_zero, sub_add_cancel]
    have hnear := hnarrow hmantissa hlt
    rw [hmantissa, hhalf] at hnear ⊢
    rw [hhalf] at hless
    push_cast at hnear hless ⊢
    have hplace : lastPlace q = b.exponent - 1 := by
      apply lastPlace_eq (by omega) hpos
      · linarith
      · intro _
        have hunit' : (0 : ℚ) < 2 ^ (b.exponent - 1) := by positivity
        linarith
    have hsame := nearest_eq_mul (m := 2 ^ 53) hplace (by push_cast; linarith)
      (by push_cast; linarith) fun h => absurd h (by decide)
    rw [hsame]
    push_cast
    ring

/-- The double itself lies in it. The interval reaches to both sides, so this holds whether its ends
belong to it or not. -/
theorem rounds_self (hb : b.Canonical) : b.Rounds (b.mantissa * 2 ^ b.exponent) := by
  have hpos := hb.pos
  have hunit : (0 : ℚ) < 2 ^ (b.exponent - 2) := by positivity
  have hself : (b.mantissa * 2 ^ b.exponent : ℚ) = (4 * b.mantissa : ℕ) * 2 ^ (b.exponent - 2) := by
    rw [zpow_sub₀ two_ne_zero]
    push_cast
    ring
  have hlower : b.interval.lower < 4 * b.mantissa := by
    unfold interval
    dsimp only
    split <;> omega
  have hupper : 4 * b.mantissa < b.interval.upper := by
    rw [upper_eq]
    omega
  have hlow : (b.interval.lower * 2 ^ (b.exponent - 2) : ℚ) < b.mantissa * 2 ^ b.exponent := by
    rw [hself]
    exact mul_lt_mul_of_pos_right (by exact_mod_cast hlower) hunit
  have hhigh : (b.mantissa * 2 ^ b.exponent : ℚ) < b.interval.upper * 2 ^ (b.exponent - 2) := by
    rw [hself]
    exact mul_lt_mul_of_pos_right (by exact_mod_cast hupper) hunit
  rw [Rounds]
  split
  · exact ⟨hlow.le, hhigh.le⟩
  · exact ⟨hlow, hhigh⟩

end Binary

/-! ## Plain text

The reader knows signs, exponents and words. Plain text has none of these but the word for infinity,
so it is read by its digits and its point. -/

/-- What is finite and above zero has a mantissa and an exponent. -/
theorem Double.isPositiveFinite_of_pos {x : Float} (hx : x.isFinite = true) (hpos : 0.0 < x) :
    IsPositiveFinite x := by
  obtain hparts | hinfinite := unpack_of_pos hpos
  · exact hparts
  · change x.toModel.unpack.isFinite = true at hx
    rw [hinfinite] at hx
    exact nomatch hx

/-- Positive doubles with the same value are the same. There is one canonical way to write a value. -/
theorem Double.eq_of_value {x y : Float} (hx : x.isFinite = true) (hpos : 0.0 < x)
    (h : value y = value x) (hy : y.isNaN = false) : y = x := by
  have hx' := isNaN_of_isFinite hx
  have hlimit := (Double.isFinite_iff hx').1 hx
  have hyfinite : y.isFinite = true := (Double.isFinite_iff hy).2 (h ▸ hlimit)
  have hypos : 0.0 < y := by
    rw [lt_iff_value exactly_zero.isNaN hx'] at hpos
    rwa [lt_iff_value exactly_zero.isNaN hy, h]
  obtain ⟨m, e, hm, hxparts⟩ := isPositiveFinite_of_pos hx hpos
  obtain ⟨n, d, hn, hyparts⟩ := isPositiveFinite_of_pos hyfinite hypos
  have hb := canonical_parts hxparts false
  have hc := canonical_parts hyparts false
  have hsame : (n * 2 ^ d : ℚ) = m * 2 ^ e := by
    unfold value at h
    rwa [hxparts, hyparts] at h
  have hrounds := Binary.rounds_self hc
  rw [hsame] at hrounds
  obtain ⟨hmantissa, hexponent⟩ := Binary.eq_of_rounds hc hb hrounds (Binary.rounds_self hb)
  apply eq_of_unpack
  rw [hxparts, hyparts]
  exact finite_congr hmantissa hexponent

namespace Reader

/-- A number without a sign starts with a digit or with its point. -/
theorem exists_cons_of_magnitude? {text : List Char} {d : Decimal} (h : magnitude? text = some d) :
    ∃ c rest, text = c :: rest ∧ (c.isDigit = true ∨ c = '.') := by
  cases text with
  | nil => cases h
  | cons c rest =>
    refine ⟨c, rest, rfl, ?_⟩
    by_contra hother
    rw [not_or, Bool.not_eq_true] at hother
    obtain ⟨hdigit, hpoint⟩ := hother
    have hdigits : digits (c :: rest) = ([], c :: rest) := by simp [digits, hdigit]
    have hfraction : fraction (c :: rest) = ([], c :: rest) :=
      fraction.eq_2 _ fun _ heq => hpoint (List.cons.inj heq).1
    unfold magnitude? at h
    rw [hdigits] at h
    dsimp only at h
    rw [hfraction] at h
    cases h

/-- It is not negative. -/
theorem negative_of_magnitude? {text : List Char} {d : Decimal} (h : magnitude? text = some d) :
    d.negative = false := by
  unfold magnitude? at h
  dsimp only at h
  split at h
  · exact nomatch h
  · obtain ⟨e, -, rfl⟩ := Option.map_eq_some_iff.1 h
    rfl

/-- And read as it is. -/
theorem readFloat?_of_magnitude? {text : List Char} {d : Decimal} (h : magnitude? text = some d) :
    readFloat? text = some d.magnitude := by
  have hstart : sign text = (false, text) ∧ word? text = none := by
    obtain ⟨c, rest, rfl, hdigit | rfl⟩ := exists_cons_of_magnitude? h
    · exact ⟨sign_of_isDigit hdigit rest, word?_of_isDigit hdigit rest⟩
    · exact ⟨rfl, rfl⟩
  obtain ⟨hsign, hword⟩ := hstart
  unfold readFloat?
  rw [hsign]
  dsimp only
  rw [hword, h, Option.none_or, Option.map_some, Option.map_some, if_neg Bool.false_ne_true,
    Decimal.toFloat, if_neg (by simp [negative_of_magnitude? h])]

end Reader

/-- **The plain text of a positive double is read as the double.** The text is the shortest decimal
that is rounded to it, and what is read is rounded once. -/
theorem readFloat?_plain {x : Float} (hx : x.isFinite = true) (hpos : 0.0 < x) :
    readFloat? (NumberStyle.plain.write x).toList = some x := by
  obtain ⟨hinfinite, -⟩ | ⟨m, e, hm, d, hparts, hread, hrounds⟩ := magnitude?_plain_of_pos hpos
  · obtain ⟨m, e, hm, hparts⟩ := Double.isPositiveFinite_of_pos hx hpos
    exact nomatch hinfinite.symm.trans hparts
  · have hcanonical := canonical_parts hparts false
    have hvalue : value x = m * 2 ^ e := congrArg exactValue hparts
    have hround := d.isRounded_magnitude
    -- the decimal and the double are rounded to the same
    have hself : rounded d.absValue = value x := by
      rw [← rounded_value (isNaN_of_isFinite hx), hvalue, rounded, rounded,
        hrounds.nearest_eq hcanonical, (Binary.rounds_self hcanonical).nearest_eq hcanonical]
    rw [NumberStyle.write, String.toList_ofList, Reader.readFloat?_of_magnitude? hread]
    exact congrArg some (Double.eq_of_value hx hpos (hround.value_eq.trans hself) hround.isNaN)

/-- So is the word for infinity. -/
theorem readFloat?_plain_of_pos {x : Float} (hpos : 0.0 < x) :
    readFloat? (NumberStyle.plain.write x).toList = some x := by
  obtain ⟨m, e, hm, hparts⟩ | hparts := Double.unpack_of_pos hpos
  · have hfinite : x.isFinite = true := by
      change x.toModel.unpack.isFinite = true
      rw [hparts]
      rfl
    exact readFloat?_plain hfinite hpos
  · obtain rfl : x = 1.0 / 0.0 := Double.eq_of_unpack (hparts.trans (by rfl))
    have hword : NumberStyle.plain.write (1.0 / 0.0) = "inf" := by decide +kernel
    rw [hword]
    rfl

end Telescope
