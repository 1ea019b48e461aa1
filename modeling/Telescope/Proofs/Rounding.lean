import Mathlib

/-!
# Rounding to the nearest double

The exact result of an operation on doubles is a rational number; the double that it becomes is the
nearest one, of two equally near ones the even one. This module is about the numbers alone:

* `roundEven` is the nearest whole number. It respects the order (`roundEven_mono`), the sign
  (`roundEven_neg`), and what is whole already (`roundEven_intCast`);
* `lastPlace` is the exponent of the last bit that a double near a number has, and `nearest` is the
  nearest multiple of that bit, however great it is;
* `nearest_mono` and `nearest_of_multiple` say the same of `nearest`: it respects the order, and the
  numbers with 53 bits stay what they are;
* `nearest_eq_mul` is the other way round: what is near enough to a number of 53 bits is rounded to it.

Nothing here knows how doubles are stored, and nothing rounds but the two functions `roundEven` and
`nearest`. What an operation does with mantissas and bits is compared with them elsewhere; what
follows from rounding, order above all, is then a fact about rational numbers.
-/

namespace Telescope.Double

/-! ## Whole numbers

Rounding to a whole number goes by the part behind the point: below a half down, above it up, and at
a half to the even neighbour. The proofs go by these three cases. -/

/-- The whole number nearest to a number, the even one if two are. -/
def roundEven (q : ℚ) : ℤ :=
  if Int.fract q < 1 / 2 then ⌊q⌋ else if 1 / 2 < Int.fract q then ⌊q⌋ + 1 else ⌊q⌋ + ⌊q⌋ % 2

variable {q r : ℚ}

/-- Rounding never goes below the whole part. -/
theorem floor_le_roundEven (q : ℚ) : ⌊q⌋ ≤ roundEven q := by
  unfold roundEven
  split_ifs <;> omega

/-- Nor does it go beyond the next whole number. -/
theorem roundEven_le_floor_add_one (q : ℚ) : roundEven q ≤ ⌊q⌋ + 1 := by
  unfold roundEven
  split_ifs <;> omega

/-- What is whole is not changed. -/
theorem roundEven_intCast (n : ℤ) : roundEven n = n := by
  have hfract : Int.fract (n : ℚ) < 1 / 2 := by
    rw [Int.fract_intCast]
    norm_num
  rw [roundEven, if_pos hfract, Int.floor_intCast]

/-- Below a half it goes down. -/
theorem roundEven_of_fract_lt (h : Int.fract q < 1 / 2) : roundEven q = ⌊q⌋ := if_pos h

/-- Above a half it goes up. -/
theorem roundEven_of_lt_fract (h : 1 / 2 < Int.fract q) : roundEven q = ⌊q⌋ + 1 := by
  rw [roundEven, if_neg h.le.not_gt, if_pos h]

/-- At a half it goes to the even neighbour. -/
theorem roundEven_of_fract_eq (h : Int.fract q = 1 / 2) : roundEven q = ⌊q⌋ + ⌊q⌋ % 2 := by
  rw [roundEven, if_neg h.not_lt, if_neg h.not_gt]

/-- **Rounding to whole numbers respects the order.** Numbers with different whole parts are rounded
at most to the number between them, and those with the same part are compared by the three cases. -/
theorem roundEven_mono (h : q ≤ r) : roundEven q ≤ roundEven r := by
  obtain hlt | heq := (Int.floor_le_floor h).lt_or_eq
  · -- the whole number after the smaller one is not above the greater one
    calc roundEven q ≤ ⌊q⌋ + 1 := roundEven_le_floor_add_one q
      _ ≤ ⌊r⌋ := hlt
      _ ≤ roundEven r := floor_le_roundEven r
  · have hfract : Int.fract q ≤ Int.fract r := by
      unfold Int.fract
      rw [heq]
      linarith
    obtain hr | hr | hr := lt_trichotomy (Int.fract r) (1 / 2)
    · rw [roundEven_of_fract_lt (hfract.trans_lt hr), roundEven_of_fract_lt hr, heq]
    · obtain hq | hq := (hfract.trans_eq hr).lt_or_eq
      · rw [roundEven_of_fract_lt hq, heq]
        exact floor_le_roundEven r
      · rw [roundEven_of_fract_eq hq, roundEven_of_fract_eq hr, heq]
    · rw [roundEven_of_lt_fract hr, ← heq]
      exact roundEven_le_floor_add_one q

/-- A number that is not whole lies as far above one whole number as its negative lies below one. So
the neighbours of the negative are the negatives of the neighbours, in the other order. -/
theorem floor_neg_of_fract_ne_zero (h : Int.fract q ≠ 0) : ⌊-q⌋ = -⌊q⌋ - 1 := by
  have hpos : 0 < Int.fract q := lt_of_le_of_ne (Int.fract_nonneg q) (Ne.symm h)
  have hlt := Int.fract_lt_one q
  unfold Int.fract at hpos hlt
  rw [Int.floor_eq_iff]
  push_cast
  constructor <;> linarith

/-- It also respects the sign, since a half goes to the even neighbour and not up. -/
theorem roundEven_neg (q : ℚ) : roundEven (-q) = -roundEven q := by
  by_cases hwhole : Int.fract q = 0
  · obtain ⟨n, rfl⟩ : ∃ n : ℤ, (n : ℚ) = q := ⟨⌊q⌋, by unfold Int.fract at hwhole; linarith⟩
    rw [← Int.cast_neg, roundEven_intCast, roundEven_intCast]
  · have hfract : Int.fract (-q) = 1 - Int.fract q := Int.fract_neg hwhole
    have hfloor := floor_neg_of_fract_ne_zero hwhole
    obtain hq | hq | hq := lt_trichotomy (Int.fract q) (1 / 2)
    · rw [roundEven_of_fract_lt hq, roundEven_of_lt_fract (by linarith), hfloor]
      omega
    · -- of the two whole numbers around a half, one is even
      rw [roundEven_of_fract_eq hq, roundEven_of_fract_eq (by linarith), hfloor]
      omega
    · rw [roundEven_of_lt_fract hq, roundEven_of_fract_lt (by linarith), hfloor]
      omega

/-- The nearest whole number is at most a half away. -/
theorem abs_roundEven_sub_le (q : ℚ) : |(roundEven q : ℚ) - q| ≤ 1 / 2 := by
  have hnonneg := Int.fract_nonneg q
  have hlt := Int.fract_lt_one q
  have hfloor : (⌊q⌋ : ℚ) = q - Int.fract q := by
    unfold Int.fract
    ring
  have hparity : ((⌊q⌋ % 2 : ℤ) : ℚ) = 0 ∨ ((⌊q⌋ % 2 : ℤ) : ℚ) = 1 := by
    obtain heven | hodd := Int.emod_two_eq_zero_or_one ⌊q⌋
    · exact .inl (by rw [heven]; norm_num)
    · exact .inr (by rw [hodd]; norm_num)
  unfold roundEven
  rw [abs_le]
  split_ifs
  · constructor <;> linarith
  · push_cast
    constructor <;> linarith
  · push_cast
    obtain heven | hodd := hparity <;> constructor <;> linarith

/-! ## Doubles

A double near a number is a whole multiple of `2 ^ lastPlace`. Rounding to doubles is rounding to
whole multiples of it. The last place itself grows with the number, so the order needs a second look
where two numbers have different last places: a power of two lies between them, and it is a double
of both kinds. -/

/-- The exponent of the last bit of a double near this number. Numbers below the normal ones share the
least exponent. -/
def lastPlace (q : ℚ) : ℤ := max (Int.log 2 |q| - 52) (-1074)

/-- The multiple of the last bit nearest to a number. -/
def nearest (q : ℚ) : ℚ := roundEven (q / 2 ^ lastPlace q) * 2 ^ lastPlace q

/-- The last place does not depend on the sign. -/
theorem lastPlace_neg (q : ℚ) : lastPlace (-q) = lastPlace q := by
  rw [lastPlace, abs_neg, lastPlace]

/-- So rounding to doubles respects the sign. -/
theorem nearest_neg (q : ℚ) : nearest (-q) = -nearest q := by
  rw [nearest, nearest, lastPlace_neg, neg_div, roundEven_neg, Int.cast_neg, neg_mul]

/-- Zero is a double. -/
theorem nearest_zero : nearest 0 = 0 := by
  have hwhole : roundEven 0 = 0 := by exact_mod_cast roundEven_intCast 0
  rw [nearest, zero_div, hwhole, Int.cast_zero, zero_mul]

/-- Whole multiples of the last bit stay what they are. -/
theorem nearest_of_eq_mul {k : ℤ} {e : ℤ} (h : q = k * 2 ^ e) (he : lastPlace q ≤ e) :
    nearest q = q := by
  obtain ⟨n, hn⟩ : ∃ n : ℕ, e = lastPlace q + n := ⟨(e - lastPlace q).toNat, by omega⟩
  have hquotient : q / 2 ^ lastPlace q = ((k * 2 ^ n : ℤ) : ℚ) := by
    rw [div_eq_iff (by positivity)]
    conv_lhs => rw [h, hn, zpow_add₀ two_ne_zero, zpow_natCast]
    push_cast
    ring
  rw [nearest, hquotient, roundEven_intCast, ← hquotient, div_mul_cancel₀ _ (by positivity)]

/-- A number below the powers of two of 53 places has its last place there or below. This is how a
bound on a number becomes a bound on the error of rounding it. -/
theorem lastPlace_le_of_lt {e : ℤ} (hq : q ≠ 0) (he : -1074 ≤ e) (h : |q| < 2 ^ (53 + e)) :
    lastPlace q ≤ e := by
  have hlog : Int.log 2 |q| < 53 + e := (Int.lt_zpow_iff_log_lt (by norm_num) (abs_pos.2 hq)).1 h
  unfold lastPlace
  omega

/-- Numbers of 53 bits stay what they are. -/
theorem nearest_of_multiple {k : ℤ} {e : ℤ} (h : q = k * 2 ^ e) (hk : |k| < 2 ^ 53)
    (he : -1074 ≤ e) : nearest q = q := by
  by_cases hq : q = 0
  · rw [hq, nearest_zero]
  · refine nearest_of_eq_mul h (lastPlace_le_of_lt hq he ?_)
    have hbits : (|k| : ℚ) < 2 ^ 53 := by exact_mod_cast hk
    rw [h, abs_mul, abs_of_pos (by positivity : (0 : ℚ) < 2 ^ e), zpow_add₀ two_ne_zero]
    exact mul_lt_mul_of_pos_right (by exact_mod_cast hbits) (by positivity)

/-- No number is rounded over zero. -/
theorem roundEven_nonneg (h : 0 ≤ q) : 0 ≤ roundEven q := by
  have hmono := roundEven_mono h
  rwa [← Int.cast_zero, roundEven_intCast] at hmono

/-- No number is rounded over zero to a double, either. -/
theorem nearest_nonneg (h : 0 ≤ q) : 0 ≤ nearest q := by
  have hround : 0 ≤ roundEven (q / 2 ^ lastPlace q) := roundEven_nonneg (by positivity)
  unfold nearest
  positivity

/-- Greater numbers have their last place no lower. -/
theorem lastPlace_mono (hq : 0 < q) (h : q ≤ r) : lastPlace q ≤ lastPlace r := by
  have hlog : Int.log 2 |q| ≤ Int.log 2 |r| := by
    rw [abs_of_pos hq, abs_of_pos (hq.trans_le h)]
    exact Int.log_mono_right hq h
  unfold lastPlace
  omega

/-- A positive number has at most 53 bits in front of its last place. -/
theorem div_lastPlace_lt (h : 0 < q) : q / 2 ^ lastPlace q < 2 ^ (53 : ℕ) := by
  have hlt := Int.lt_zpow_succ_log_self (b := 2) (by norm_num) q
  have hplace : Int.log 2 q + 1 ≤ (53 : ℕ) + lastPlace q := by
    unfold lastPlace
    rw [abs_of_pos h]
    omega
  rw [div_lt_iff₀ (by positivity), ← zpow_natCast, ← zpow_add₀ two_ne_zero]
  exact hlt.trans_le (zpow_le_zpow_right₀ (by norm_num) hplace)

/-- And no fewer, unless it is below the normal numbers. -/
theorem le_div_lastPlace (h : 0 < q) (hplace : -1074 < lastPlace q) :
    2 ^ (52 : ℕ) ≤ q / 2 ^ lastPlace q := by
  have hle := Int.zpow_log_le_self (b := 2) (by norm_num) h
  have hlog : (52 : ℕ) + lastPlace q = Int.log 2 q := by
    unfold lastPlace at hplace ⊢
    rw [abs_of_pos h] at hplace ⊢
    omega
  rw [le_div_iff₀ (by positivity), ← zpow_natCast, ← zpow_add₀ two_ne_zero, hlog]
  exact_mod_cast hle

/-- With less than 53 bits in front of the point the rounded number can reach the next power of two,
but not go beyond it. -/
theorem roundEven_le_of_lt (h : q < 2 ^ (53 : ℕ)) : roundEven q ≤ 2 ^ 53 := by
  have hmono : roundEven q ≤ roundEven ((2 ^ 53 : ℤ) : ℚ) := roundEven_mono (by exact_mod_cast h.le)
  rwa [roundEven_intCast] at hmono

/-- A number of 53 bits stays one of 53 bits. With `roundEven_le_of_lt` this puts a power of two
between numbers with different last places. -/
theorem le_roundEven_of_le (h : 2 ^ (52 : ℕ) ≤ q) : 2 ^ 52 ≤ roundEven q := by
  have hmono : roundEven ((2 ^ 52 : ℤ) : ℚ) ≤ roundEven q := roundEven_mono (by exact_mod_cast h)
  rwa [roundEven_intCast] at hmono

/-- The order of positive numbers. With one last place for both it is the order of whole multiples;
with two the power of two between them is where the first ends and the second starts. -/
theorem nearest_mono_of_pos (hq : 0 < q) (h : q ≤ r) : nearest q ≤ nearest r := by
  have hr : 0 < r := hq.trans_le h
  obtain hlt | heq := (lastPlace_mono hq h).lt_or_eq
  · -- a power of two lies between numbers with different last places
    have hlow : (roundEven (q / 2 ^ lastPlace q) : ℚ) ≤ 2 ^ 53 := by
      exact_mod_cast roundEven_le_of_lt (div_lastPlace_lt hq)
    have hhigh : (2 ^ 52 : ℚ) ≤ roundEven (r / 2 ^ lastPlace r) := by
      have hplace : -1074 < lastPlace r := lt_of_le_of_lt (le_max_right _ _) hlt
      exact_mod_cast le_roundEven_of_le (le_div_lastPlace hr hplace)
    calc nearest q ≤ 2 ^ 53 * 2 ^ lastPlace q := mul_le_mul_of_nonneg_right hlow (by positivity)
      _ = 2 ^ 52 * 2 ^ (lastPlace q + 1) := by
        rw [zpow_add_one₀ two_ne_zero]
        ring
      _ ≤ 2 ^ 52 * 2 ^ lastPlace r :=
        mul_le_mul_of_nonneg_left (zpow_le_zpow_right₀ (by norm_num) hlt) (by positivity)
      _ ≤ nearest r := mul_le_mul_of_nonneg_right hhigh (by positivity)
  · have hround : roundEven (q / 2 ^ lastPlace r) ≤ roundEven (r / 2 ^ lastPlace r) :=
      roundEven_mono (div_le_div_of_nonneg_right h (by positivity))
    unfold nearest
    rw [heq]
    exact mul_le_mul_of_nonneg_right (by exact_mod_cast hround) (by positivity)

/-- **Rounding respects the order.** -/
theorem nearest_mono (h : q ≤ r) : nearest q ≤ nearest r := by
  obtain hneg | hzero | hpos := lt_trichotomy q 0
  · obtain hr | hr := lt_or_ge r 0
    · have hflip := nearest_mono_of_pos (neg_pos.2 hr) (neg_le_neg h)
      rw [nearest_neg, nearest_neg] at hflip
      exact neg_le_neg_iff.1 hflip
    · have hflip := nearest_nonneg (neg_nonneg.2 hneg.le)
      rw [nearest_neg] at hflip
      linarith [nearest_nonneg hr]
  · rw [hzero, nearest_zero]
    exact nearest_nonneg (hzero.symm.trans_le h)
  · exact nearest_mono_of_pos hpos h

/-- Rounding moves a number by half a unit of its last place at most. -/
theorem abs_nearest_sub_le (q : ℚ) : |nearest q - q| ≤ 2 ^ (lastPlace q - 1) := by
  have hunit : (0 : ℚ) < 2 ^ lastPlace q := by positivity
  have hdiff : nearest q - q =
      ((roundEven (q / 2 ^ lastPlace q) : ℚ) - q / 2 ^ lastPlace q) * 2 ^ lastPlace q := by
    rw [nearest, sub_mul, div_mul_cancel₀ _ hunit.ne']
  rw [hdiff, abs_mul, abs_of_pos hunit, zpow_sub_one₀ two_ne_zero, mul_comm, ← one_div]
  exact mul_le_mul_of_nonneg_left (abs_roundEven_sub_le _) hunit.le

/-! ## Numbers near a double

The other way round: given a double, these are the numbers that are rounded to it. A reader of
decimals and a printer of the shortest one meet in this interval, which is closed for even mantissas
only. -/

/-- A number within half a unit of a whole one is rounded to it, if it is even or nearer. At a half
both neighbours are near, and the even one is taken. -/
theorem roundEven_eq {k : ℤ} (hlow : k - 1 / 2 ≤ q) (hhigh : q ≤ k + 1 / 2)
    (hodd : k % 2 = 1 → k - 1 / 2 < q ∧ q < k + 1 / 2) : roundEven q = k := by
  obtain hlt | hle := lt_or_ge q k
  · have hfloor : ⌊q⌋ = k - 1 := by
      rw [Int.floor_eq_iff]
      push_cast
      constructor <;> linarith
    have hfract : Int.fract q = q - k + 1 := by
      rw [Int.fract, hfloor]
      push_cast
      ring
    obtain heq | hne := hlow.eq_or_lt
    · have heven : ¬ k % 2 = 1 := fun h => absurd (hodd h).1 heq.not_lt
      rw [roundEven_of_fract_eq (by rw [hfract]; linarith), hfloor]
      omega
    · rw [roundEven_of_lt_fract (by rw [hfract]; linarith), hfloor]
      omega
  · have hfloor : ⌊q⌋ = k := by
      rw [Int.floor_eq_iff]
      constructor <;> linarith
    have hfract : Int.fract q = q - k := by rw [Int.fract, hfloor]
    obtain heq | hne := hhigh.eq_or_lt
    · have heven : ¬ k % 2 = 1 := fun h => absurd (hodd h).2 heq.not_lt
      rw [roundEven_of_fract_eq (by rw [hfract]; linarith), hfloor]
      omega
    · rw [roundEven_of_fract_lt (by rw [hfract]; linarith), hfloor]

/-- The last place of a number with 53 bits in front of it. It is told by the size of the number, up
to the least place that there is. -/
theorem lastPlace_eq {e : ℤ} (he : -1074 ≤ e) (hpos : 0 < q) (hbelow : q < 2 ^ 53 * 2 ^ e)
    (habove : -1074 < e → 2 ^ 52 * 2 ^ e ≤ q) : lastPlace q = e := by
  have hpower : ∀ n : ℕ, (2 : ℚ) ^ n * 2 ^ e = 2 ^ (n + e : ℤ) := by
    intro n
    rw [zpow_add₀ two_ne_zero, zpow_natCast]
  rw [hpower] at hbelow habove
  apply le_antisymm
  · exact lastPlace_le_of_lt hpos.ne' he (by rwa [abs_of_pos hpos])
  · obtain rfl | hlt := he.eq_or_lt
    · exact le_max_right _ _
    · have hlog : ((52 : ℕ) + e : ℤ) ≤ Int.log 2 q :=
        (Int.zpow_le_iff_le_log (b := 2) (by norm_num) hpos).1 (by exact_mod_cast habove hlt)
      rw [lastPlace, abs_of_pos hpos]
      omega

/-- A number near to a whole multiple of its last place is rounded to it. -/
theorem nearest_eq_mul {m : ℕ} {e : ℤ} (hplace : lastPlace q = e)
    (hlow : (m - 1 / 2) * 2 ^ e ≤ q) (hhigh : q ≤ (m + 1 / 2) * 2 ^ e)
    (hodd : m % 2 = 1 → (m - 1 / 2) * 2 ^ e < q ∧ q < (m + 1 / 2) * 2 ^ e) :
    nearest q = m * 2 ^ e := by
  have hunit : (0 : ℚ) < 2 ^ e := by positivity
  rw [← le_div_iff₀ hunit] at hlow
  rw [← div_le_iff₀ hunit] at hhigh
  rw [← lt_div_iff₀ hunit, ← div_lt_iff₀ hunit] at hodd
  have hwhole : roundEven (q / 2 ^ e) = (m : ℤ) :=
    roundEven_eq hlow hhigh fun h => hodd (by omega)
  rw [nearest, hplace, hwhole, Int.cast_natCast]

/-- Numbers below half the least double vanish. -/
theorem nearest_of_small (hpos : 0 < q) (h : q < 2 ^ (-1075 : ℤ)) : nearest q = 0 := by
  obtain ⟨least, hleast⟩ : ∃ least : ℚ, 2 ^ (-1074 : ℤ) = least := ⟨_, rfl⟩
  have hunit : 0 < least := hleast ▸ zpow_pos two_pos _
  have hhalf : (2 : ℚ) ^ (-1074 : ℤ) = 2 ^ (-1075 : ℤ) * 2 := zpow_add_one₀ two_ne_zero (-1075)
  rw [hleast] at hhalf
  have hless : 2 * q < least := by
    rw [hhalf, mul_comm]
    exact mul_lt_mul_of_pos_right h two_pos
  have hbelow : q < 2 ^ 53 * 2 ^ (-1074 : ℤ) := by
    rw [hleast]
    linarith
  have hplace := lastPlace_eq le_rfl hpos hbelow fun hlt => absurd hlt (lt_irrefl _)
  have hzero := nearest_eq_mul (m := 0) hplace (by rw [hleast, Nat.cast_zero]; linarith)
    (by rw [hleast, Nat.cast_zero]; linarith) fun hodd => absurd hodd (by decide)
  rwa [Nat.cast_zero, zero_mul] at hzero

end Telescope.Double
