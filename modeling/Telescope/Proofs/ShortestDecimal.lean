import Telescope.Decimal.Style
import Telescope.Proofs.FixedReading

/-!
# The shortest decimal of a double

The search for the shortest decimal finds one, and what it finds is rounded to the double and to no
other.

* `Binary.Rounds` is the interval of the numbers that are rounded to a double. The intervals of two
  doubles have no number in common (`eq_of_rounds`): where they meet in one, it belongs to the double
  with the even mantissa.
* `scale_le_unit_iff` is what the comparisons of whole numbers in the search say about numbers.
* `rounds_of_withDigits?` is the step of the search, and `withDigits?_ne_none` its end: with seventeen
  digits the step between decimals is smaller than every interval.
* `rounds_shortest` is the result.

All comparisons are of exact numbers. The search compares whole numbers, which get very long for
small doubles; what they stand for are rational numbers with powers of two and ten, and these laws
are theirs.
-/

namespace Telescope

/-! ## Exact values

The tables of powers are whole numbers. A negative exponent puts a power on the other side of the
comparison. -/

/-- The powers of two are what they are called. -/
theorem cast_powerOfTwo (n : Nat) : (powerOfTwo n : ℚ) = 2 ^ n := by
  simp [powerOfTwo]

/-- So are those of ten. -/
theorem cast_powerOfTen (n : Nat) : (powerOfTen n : ℚ) = 10 ^ n := by
  simp [powerOfTen]

/-- A power with a negative exponent is divided by, not multiplied with. -/
theorem pow_toNat {a : ℚ} (ha : a ≠ 0) (k : Int) : a ^ k.toNat = a ^ k * a ^ (-k).toNat := by
  obtain ⟨n, rfl | rfl⟩ := k.eq_nat_or_neg
  · simp
  · simp [ha]

/-- The number that the digits and the exponent of a decimal stand for, without its sign. -/
def Decimal.absValue (d : Decimal) : ℚ := d.digits * 10 ^ d.exponent

namespace Binary

/-! ## The interval of a double

The ends are halfway to the neighbours. Below a power of two the neighbours are closer, so the lower
end is a quarter away there; that is the only case in which the interval is not symmetric. -/

/-- The number lies in the interval of those that are rounded to the double. -/
def Rounds (b : Binary) (q : ℚ) : Prop :=
  if b.interval.closed then
    b.interval.lower * 2 ^ (b.exponent - 2) ≤ q ∧ q ≤ b.interval.upper * 2 ^ (b.exponent - 2)
  else
    b.interval.lower * 2 ^ (b.exponent - 2) < q ∧ q < b.interval.upper * 2 ^ (b.exponent - 2)

/-- The parts are those of a double other than zero: all bits are used, unless the exponent is the
least. -/
structure Canonical (b : Binary) : Prop where
  /-- the double is not zero -/
  pos : 0 < b.mantissa
  /-- the mantissa has 53 bits at most -/
  lt : b.mantissa < 2 ^ 53
  /-- the exponent is not below the least -/
  least : leastExponent ≤ b.exponent
  /-- and above it, the mantissa has no fewer bits -/
  full : leastExponent < b.exponent → 2 ^ 52 ≤ b.mantissa

variable {b c : Binary} {q : ℚ}

/-- The interval is between its ends, whether they belong to it or not. -/
theorem Rounds.between (h : b.Rounds q) :
    b.interval.lower * 2 ^ (b.exponent - 2) ≤ q ∧ q ≤ b.interval.upper * 2 ^ (b.exponent - 2) := by
  unfold Rounds at h
  split at h
  · exact h
  · exact ⟨h.1.le, h.2.le⟩

/-- The ends belong to the interval only if the mantissa is even. -/
theorem Rounds.inside (h : b.Rounds q) (hodd : b.mantissa % 2 = 1) :
    b.interval.lower * 2 ^ (b.exponent - 2) < q ∧ q < b.interval.upper * 2 ^ (b.exponent - 2) := by
  have hopen : b.interval.closed = false := by simp [interval, hodd]
  rw [Rounds, hopen] at h
  exact h

/-- The interval reaches half a unit above the double. -/
theorem upper_eq (b : Binary) : b.interval.upper = 4 * b.mantissa + 2 := rfl

/-- The interval reaches half a unit below the double, or a quarter below a power of two. -/
theorem le_lower (b : Binary) : 4 * b.mantissa ≤ b.interval.lower + 2 := by
  unfold interval
  dsimp only
  split <;> omega

/-- Above the least exponent the interval does not reach below the doubles with this exponent. -/
theorem le_lower_of_full (h : leastExponent < b.exponent) (hfull : 2 ^ 52 ≤ b.mantissa) :
    2 ^ 54 ≤ b.interval.lower + 1 := by
  have hbit : hiddenBit = 2 ^ 52 := rfl
  unfold interval
  dsimp only
  split <;> omega

/-- An end of one interval that is no greater than an end of another, counted in units no greater. -/
theorem ends_le {m n : Nat} {u v : ℚ} (hu : 0 ≤ u) (huv : u ≤ v) (h : m ≤ n) :
    (m : ℚ) * u ≤ n * v := by
  have hmn : (m : ℚ) ≤ n := by exact_mod_cast h
  exact mul_le_mul hmn huv hu (by positivity)

/-- Of two doubles with the same exponent, the one with the greater mantissa has the greater
numbers. Where their intervals touch, only one of the mantissas is even. -/
theorem not_rounds_of_lt_mantissa (hexponent : b.exponent = c.exponent)
    (hlt : b.mantissa < c.mantissa) (hb : b.Rounds q) : ¬ c.Rounds q := by
  intro hc
  have hu : (0 : ℚ) < 2 ^ (c.exponent - 2) := by positivity
  have hupper := hb.between.2
  have hlower := hc.between.1
  rw [hexponent] at hupper
  have hends : b.interval.upper ≤ c.interval.lower := by
    have hle := c.le_lower
    rw [upper_eq]
    omega
  have hmeet : (b.interval.upper : ℚ) * 2 ^ (c.exponent - 2) ≤
      c.interval.lower * 2 ^ (c.exponent - 2) := ends_le hu.le le_rfl hends
  -- where the intervals meet in one number, one of the mantissas is odd
  by_cases hodd : b.mantissa % 2 = 1
  · have hinside := (hb.inside hodd).2
    rw [hexponent] at hinside
    linarith
  · by_cases hodd' : c.mantissa % 2 = 1
    · have hinside := (hc.inside hodd').1
      linarith
    · have hstrict : b.interval.upper + 1 ≤ c.interval.lower := by
        have hle := c.le_lower
        rw [upper_eq]
        omega
      have hgap : ((b.interval.upper + 1 : ℕ) : ℚ) * 2 ^ (c.exponent - 2) ≤
          c.interval.lower * 2 ^ (c.exponent - 2) := ends_le hu.le le_rfl hstrict
      push_cast at hgap
      linarith

/-- Of two doubles with different exponents, the one with the greater exponent has the greater
numbers. -/
theorem not_rounds_of_lt_exponent (hb : b.Canonical) (hc : c.Canonical)
    (hlt : b.exponent < c.exponent) (hbq : b.Rounds q) : ¬ c.Rounds q := by
  intro hcq
  have hu : (0 : ℚ) < 2 ^ (b.exponent - 2) := by positivity
  have hlower := hcq.between.1
  have hupper := hbq.between.2
  have hleast : leastExponent < c.exponent := lt_of_le_of_lt hb.least hlt
  have hfull := le_lower_of_full hleast (hc.full hleast)
  have hbits := hb.lt
  -- the unit of the greater exponent is at least twice the other
  have hunits : 2 * (2 : ℚ) ^ (b.exponent - 2) ≤ 2 ^ (c.exponent - 2) := by
    rw [← zpow_one_add₀ (by norm_num)]
    exact zpow_le_zpow_right₀ (by norm_num) (by omega)
  have hdouble : ((2 * c.interval.lower : ℕ) : ℚ) * 2 ^ (b.exponent - 2) ≤
      c.interval.lower * 2 ^ (c.exponent - 2) := by
    rw [Nat.cast_mul, Nat.cast_ofNat, mul_comm 2, mul_assoc]
    exact mul_le_mul_of_nonneg_left hunits (by positivity)
  by_cases hodd : b.mantissa % 2 = 1
  · have hends : b.interval.upper ≤ 2 * c.interval.lower := by
      rw [upper_eq]
      omega
    have hmeet := ends_le hu.le le_rfl hends
    have hinside := (hbq.inside hodd).2
    linarith only [hmeet, hdouble, hinside, hlower]
  · have hends : b.interval.upper + 1 ≤ 2 * c.interval.lower := by
      rw [upper_eq]
      omega
    have hgap := ends_le hu.le le_rfl hends
    push_cast at hgap hdouble
    linarith only [hgap, hdouble, hlower, hupper, hu]

/-- **No number is rounded to two doubles.** -/
theorem eq_of_rounds (hb : b.Canonical) (hc : c.Canonical) (hbq : b.Rounds q) (hcq : c.Rounds q) :
    b.mantissa = c.mantissa ∧ b.exponent = c.exponent := by
  obtain hlt | heq | hgt := lt_trichotomy b.exponent c.exponent
  · exact absurd hcq (not_rounds_of_lt_exponent hb hc hlt hbq)
  · obtain hlt' | heq' | hgt' := Nat.lt_trichotomy b.mantissa c.mantissa
    · exact absurd hcq (not_rounds_of_lt_mantissa heq hlt' hbq)
    · exact ⟨heq', heq⟩
    · exact absurd hbq (not_rounds_of_lt_mantissa heq.symm hgt' hcq)
  · exact absurd hbq (not_rounds_of_lt_exponent hc hb hgt hcq)

/-! ## The decimal grid

For a number of digits the candidates are the multiples of one power of ten that are next to the
double, on either side. If neither is in the interval, no multiple is, and the search goes on with
more digits. -/

/-- What the powers with negative exponents come to, by which both sides of a comparison are multiplied
to be whole numbers. -/
def commonFactor (shift place : Int) : ℚ := 2 ^ (-shift).toNat * 10 ^ (-place).toNat

/-- It is positive, so multiplying by it keeps the order. -/
theorem commonFactor_pos (shift place : Int) : 0 < commonFactor shift place := by
  unfold commonFactor
  positivity

/-- What multiplies the binary side of a comparison. -/
theorem cast_scale (shift place : Int) :
    ((powerOfTwo shift.toNat * powerOfTen (-place).toNat : Nat) : ℚ) =
      2 ^ shift * commonFactor shift place := by
  rw [Nat.cast_mul, cast_powerOfTwo, cast_powerOfTen, commonFactor, pow_toNat two_ne_zero shift,
    mul_assoc]

/-- What multiplies the decimal side. -/
theorem cast_unit (shift place : Int) :
    ((powerOfTwo (-shift).toNat * powerOfTen place.toNat : Nat) : ℚ) =
      10 ^ place * commonFactor shift place := by
  have hten : (10 : ℚ) ≠ 0 := by norm_num
  rw [Nat.cast_mul, cast_powerOfTwo, cast_powerOfTen, commonFactor, pow_toNat hten place]
  ring

/-- A point of the grid and a multiple of the binary unit are compared as whole numbers. -/
theorem scale_le_unit_iff {shift place : Int} {m k : Nat} :
    m * (powerOfTwo shift.toNat * powerOfTen (-place).toNat) ≤
      k * (powerOfTwo (-shift).toNat * powerOfTen place.toNat) ↔
    (m : ℚ) * 2 ^ shift ≤ k * 10 ^ place := by
  rw [← Nat.cast_le (α := ℚ), Nat.cast_mul, Nat.cast_mul k, cast_scale, cast_unit, ← mul_assoc,
    ← mul_assoc, mul_le_mul_iff_of_pos_right (commonFactor_pos shift place)]

/-- The same the other way round. -/
theorem unit_le_scale_iff {shift place : Int} {m k : Nat} :
    k * (powerOfTwo (-shift).toNat * powerOfTen place.toNat) ≤
      m * (powerOfTwo shift.toNat * powerOfTen (-place).toNat) ↔
    (k : ℚ) * 10 ^ place ≤ m * 2 ^ shift := by
  rw [← Nat.cast_le (α := ℚ), Nat.cast_mul, Nat.cast_mul m, cast_scale, cast_unit, ← mul_assoc,
    ← mul_assoc, mul_le_mul_iff_of_pos_right (commonFactor_pos shift place)]

/-- **What is found rounds to the double.** The comparisons that the search has made say so, once
they are read as comparisons of numbers. -/
theorem rounds_of_withDigits? {tie : Tie} {count k : Nat} {place : Int}
    (h : b.withDigits? tie count = some (k, place)) : b.Rounds (k * 10 ^ place) := by
  unfold withDigits? at h
  extract_lets range shift point place' scale unit below rest inside above at h
  have hinside : ∀ digits, inside digits = true → (k, place) = (digits, place') →
      b.Rounds (k * 10 ^ place) := by
    rintro digits hdigits heq
    obtain ⟨rfl, hplace⟩ := Prod.mk.inj heq
    rw [hplace, Rounds]
    simp only [inside] at hdigits
    split at hdigits
    · next hclosed =>
      rw [if_pos hclosed]
      rw [decide_eq_true_eq] at hdigits
      exact ⟨scale_le_unit_iff.1 hdigits.1, unit_le_scale_iff.1 hdigits.2⟩
    · next hopen =>
      rw [if_neg hopen]
      rw [decide_eq_true_eq, ← Nat.not_le, ← Nat.not_le] at hdigits
      exact ⟨lt_of_not_ge fun hle => hdigits.1 (unit_le_scale_iff.2 hle),
        lt_of_not_ge fun hle => hdigits.2 (scale_le_unit_iff.2 hle)⟩
  split at h
  · next hbelow habove =>
    split at h
    · exact hinside _ hbelow (Option.some.inj h).symm
    · split at h
      · exact hinside _ habove (Option.some.inj h).symm
      · split at h
        · split at h
          · exact hinside _ hbelow (Option.some.inj h).symm
          · exact hinside _ habove (Option.some.inj h).symm
        · exact hinside _ habove (Option.some.inj h).symm
  · next hbelow habove => exact hinside _ hbelow (Option.some.inj h).symm
  · next hbelow habove => exact hinside _ habove (Option.some.inj h).symm
  · exact nomatch h

/-- A number has as many digits as it takes. -/
theorem le_of_digitCount {n : Nat} (hpos : 0 < n) : 10 ^ (digitCount n - 1) ≤ n := by
  obtain hone | hmore : digitCount n - 1 = 0 ∨ 0 < digitCount n - 1 := by omega
  · rw [hone, pow_zero]
    exact hpos
  · by_contra hlt
    have hle := (Nat.length_toDigits_le_iff (by decide) hmore).2 (Nat.lt_of_not_le hlt)
    have hcount := digitCount_pos n
    unfold digitCount at hle hmore hcount
    omega

/-- And no more than that many. -/
theorem lt_of_digitCount (n : Nat) : n < 10 ^ digitCount n :=
  (Nat.length_toDigits_le_iff (by decide) (digitCount_pos n)).1 le_rfl

/-- The first digit of a fraction is not before its decimal point. -/
theorem pointOf_le {num den : Nat} (hnum : 0 < num) (hden : 0 < den) :
    (10 : ℚ) ^ (pointOf num den - 1) * den ≤ num := by
  unfold pointOf
  split
  · next hle =>
    have hcount := digitCount_pos (num / den)
    have hpower : (10 : ℚ) ^ ((digitCount (num / den) : Int) - 1) =
        (10 ^ (digitCount (num / den) - 1) : Nat) := by
      rw [Nat.cast_pow, Nat.cast_ofNat, ← zpow_natCast]
      congr 1
      omega
    have hdigits := le_of_digitCount (Nat.div_pos hle hden)
    rw [hpower]
    exact_mod_cast (Nat.mul_le_mul_right den hdigits).trans (Nat.div_mul_le_self num den)
  · next hlt =>
    obtain ⟨above, habove⟩ : ∃ above, (den + num - 1) / num = above := ⟨_, rfl⟩
    -- the quotient is below one, so the inverse is rounded up and its digits are counted
    have hceil : den ≤ above * num := by
      have hdiv := Nat.div_add_mod (den + num - 1) num
      have hmod := Nat.mod_lt (den + num - 1) hnum
      rw [habove, Nat.mul_comm] at hdiv
      omega
    have hdigits := lt_of_digitCount (above - 1)
    have hnat : den ≤ 10 ^ digitCount (above - 1) * num :=
      hceil.trans (Nat.mul_le_mul_right num (by omega))
    have hcast : (den : ℚ) ≤ 10 ^ digitCount (above - 1) * num := by exact_mod_cast hnat
    have hexponent : (1 : Int) - digitCount (above - 1) - 1 = -(digitCount (above - 1) : Int) := by
      omega
    rw [habove, hexponent, zpow_neg, zpow_natCast]
    exact (inv_mul_le_iff₀ (by positivity)).2 hcast

/-- The interval of a double is wider than the step between decimals with seventeen digits. -/
theorem lt_width (h : b.Canonical) :
    4 * b.mantissa < (b.interval.upper - b.interval.lower) * 10 ^ 16 := by
  have hlt := h.lt
  have hbit : hiddenBit = 2 ^ 52 := rfl
  unfold interval
  dsimp only
  split <;> omega

/-- Seventeen digits are enough for every double: if neither neighbour on the grid were in the interval,
the interval would fit between them. -/
theorem withDigits?_ne_none (h : b.Canonical) (tie : Tie) : b.withDigits? tie 17 ≠ none := by
  intro hnone
  unfold withDigits? at hnone
  extract_lets range shift point place scale unit below rest inside above at hnone
  have hu : (0 : ℚ) < 2 ^ shift := by positivity
  have hunit : 0 < unit := Nat.mul_pos (powerOfTwo_pos _) (powerOfTen_pos _)
  -- what is not inside lies beyond one of the ends of the interval
  have houtside : ∀ digits, inside digits = false →
      (digits * 10 ^ place : ℚ) ≤ range.lower * 2 ^ shift ∨
        (range.upper * 2 ^ shift : ℚ) ≤ digits * 10 ^ place := by
    intro digits hdigits
    rw [← unit_le_scale_iff, ← scale_le_unit_iff]
    change digits * unit ≤ range.lower * scale ∨ range.upper * scale ≤ digits * unit
    simp only [inside] at hdigits
    split at hdigits
    · rw [decide_eq_false_iff_not] at hdigits
      omega
    · rw [decide_eq_false_iff_not] at hdigits
      omega
  have hlow : (below * 10 ^ place : ℚ) ≤ range.middle * 2 ^ shift :=
    unit_le_scale_iff.1 (Nat.div_mul_le_self (range.middle * scale) unit)
  have hhigh : (range.middle * 2 ^ shift : ℚ) < above * 10 ^ place :=
    lt_of_not_ge fun hle => absurd (unit_le_scale_iff.2 hle)
      (Nat.not_le.2 (Nat.lt_mul_of_div_lt (Nat.lt_succ_self below) hunit))
  have hlower : (range.lower * 2 ^ shift : ℚ) ≤ range.middle * 2 ^ shift :=
    ends_le hu.le le_rfl (Nat.sub_le _ _)
  have hupper : (range.middle * 2 ^ shift : ℚ) < range.upper * 2 ^ shift := by
    have hends : range.middle < range.upper := Nat.lt_add_of_pos_right (by decide)
    exact mul_lt_mul_of_pos_right (by exact_mod_cast hends) hu
  -- the step of the grid is small against the double, by seventeen digits
  have hstep : (10 : ℚ) ^ place * 10 ^ 16 ≤ range.middle * 2 ^ shift := by
    have hmiddle : 0 < range.middle := Nat.mul_pos (by decide) h.pos
    have hfirst : (10 : ℚ) ^ (point - 1) * powerOfTwo (-shift).toNat ≤
        (range.middle * powerOfTwo shift.toNat : Nat) :=
      pointOf_le (Nat.mul_pos hmiddle (powerOfTwo_pos _)) (powerOfTwo_pos _)
    rw [Nat.cast_mul, cast_powerOfTwo, cast_powerOfTwo, pow_toNat two_ne_zero shift, ← mul_assoc,
      mul_le_mul_iff_of_pos_right (by positivity)] at hfirst
    have hplace : point - 1 = place + (16 : Nat) := by
      simp only [place]
      omega
    rwa [hplace, zpow_add₀ (by norm_num), zpow_natCast] at hfirst
  have hwidth : (range.middle : ℚ) < (range.upper - range.lower) * 10 ^ 16 := by
    have hle : range.lower ≤ range.upper := (Nat.sub_le _ _).trans (Nat.le_add_right _ _)
    rw [← Nat.cast_sub hle]
    exact_mod_cast lt_width h
  have hwide := mul_lt_mul_of_pos_right hwidth hu
  split at hnone
  · split at hnone
    · exact nomatch hnone
    · split at hnone
      · exact nomatch hnone
      · cases tie <;> exact nomatch hnone
  · exact nomatch hnone
  · exact nomatch hnone
  · next hbelow habove =>
    -- the one neighbour is below the interval and the other above it, so a step is wider than the
    -- interval
    have hleft := (houtside _ hbelow).resolve_right (by linarith only [hlow, hupper])
    have hright := (houtside _ habove).resolve_left (by linarith only [hhigh, hlower])
    simp only [above, Nat.cast_add, Nat.cast_one] at hright
    linarith only [hleft, hright, hstep, hwide]

/-- Dropping final zeros leaves the value. -/
theorem value_dropZeros (fuel : Nat) (d : Nat × Int) :
    ((dropZeros fuel d).1 : ℚ) * 10 ^ (dropZeros fuel d).2 = d.1 * 10 ^ d.2 := by
  induction fuel generalizing d with
  | zero => rfl
  | succ fuel ih =>
    obtain ⟨digits, place⟩ := d
    rw [dropZeros]
    split
    · next hzero =>
      have hdigits : (digits : ℚ) = (digits / 10 : Nat) * 10 := by
        exact_mod_cast (Nat.div_mul_cancel (Nat.dvd_of_mod_eq_zero hzero.2)).symm
      rw [ih, hdigits, zpow_add_one₀ (by norm_num)]
      ring
    · rfl

/-- **The shortest decimal is rounded to the double.** -/
theorem rounds_shortest (h : b.Canonical) (tie : Tie) : b.Rounds (b.shortest tie).absValue := by
  have hsome : (List.range 17).findSome? (fun n => b.withDigits? tie (n + 1)) ≠ none := by
    rw [Ne, List.findSome?_eq_none_iff]
    exact fun hnone => withDigits?_ne_none h tie (hnone 16 (by decide))
  obtain ⟨⟨digits, place⟩, hfound⟩ := Option.ne_none_iff_exists'.1 hsome
  obtain ⟨n, -, hdigits⟩ := List.exists_of_findSome?_eq_some hfound
  have hrounds := rounds_of_withDigits? hdigits
  have hvalue := value_dropZeros (digitCount digits) (digits, place)
  unfold shortest
  rw [if_neg h.pos.ne', hfound]
  rwa [← hvalue] at hrounds

/-- Only positive numbers are rounded to a positive double. -/
theorem Rounds.pos (hq : b.Rounds q) (h : b.Canonical) : 0 < q := by
  have hpos := h.pos
  have hlower : 0 < b.interval.lower := by
    have hle := b.le_lower
    omega
  refine lt_of_lt_of_le ?_ hq.between.1
  positivity

/-- The shortest decimal is not zero, since zero is rounded to no double but itself. -/
theorem digits_shortest_ne_zero (h : b.Canonical) (tie : Tie) : (b.shortest tie).digits ≠ 0 := by
  intro hzero
  have hpos := (rounds_shortest h tie).pos h
  rw [Decimal.absValue, hzero, Nat.cast_zero, zero_mul] at hpos
  exact lt_irrefl 0 hpos

end Binary

end Telescope
