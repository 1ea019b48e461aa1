import Telescope.Proofs.ShortestDecimal

/-!
# The plain text of doubles

Plain text has no exponent, and shows the digits of the shortest decimal with zeros as far as they are
needed. It is read as a decimal of the same value (`exists_magnitude?_positionalText`), so the plain text
of a positive double is read as a decimal that is rounded to the double (`magnitude?_plain_of_pos`). The
word for infinity is no decimal.

Which decimal is written is settled elsewhere: the shortest that is rounded to the double. Here it
is shown that writing a decimal and reading it leaves its value.
-/

namespace Telescope

/-! ## Reading decimals

The reader keeps digits and an exponent, and counts decimals off the exponent. So the same value can
be read from different texts, and values are compared. -/

/-- Every zero behind some digits makes them worth ten times as much. -/
theorem digitsFrom_replicate_zero (n k : Nat) : digitsFrom n (List.replicate k '0') = n * 10 ^ k := by
  induction k generalizing n with
  | zero => rw [Nat.pow_zero, Nat.mul_one]; rfl
  | succ k ih =>
    have hfirst : digitsFrom n (List.replicate (k + 1) '0') =
        digitsFrom (n * 10) (List.replicate k '0') := rfl
    rw [hfirst, ih, Nat.pow_succ, Nat.mul_assoc, Nat.mul_comm 10]

/-- Digits without a point are a whole number. -/
theorem Reader.magnitude?_digits {run : List Char} (hrun : ∀ c ∈ run, c.isDigit = true)
    (hne : run ≠ []) : magnitude? run = some ⟨false, digitsFrom 0 run, 0⟩ := by
  have hdigits : digits (run ++ []) = (run, []) := digits_of_digits hrun nofun
  rw [List.append_nil] at hdigits
  have hempty : ¬ (run.isEmpty = true ∧ ([] : List Char).isEmpty = true) := by simp [hne]
  unfold magnitude?
  rw [hdigits]
  dsimp only [fraction]
  rw [if_neg hempty, exponent?, Option.map_some, List.append_nil]
  rfl

namespace NumberStyle

/-- **Digits with a point put among them** are read as the digits times a power of ten. -/
theorem exists_magnitude?_positionalText {run : List Char} (hrun : ∀ c ∈ run, c.isDigit = true)
    (hne : run ≠ []) (point : Int) :
    ∃ d, Reader.magnitude? (positionalText false run point) = some d ∧
      d.absValue = digitsFrom 0 run * 10 ^ (point - run.length) := by
  have hzeros : ∀ k, ∀ c ∈ List.replicate k '0', c.isDigit = true :=
    fun k c hc => isDigit_of_mem_zeros hc
  unfold positionalText
  split
  · next hpoint =>
    -- the point is before all digits
    have hdecimals := List.forall_mem_append.2 ⟨hzeros (-point).toNat, hrun⟩
    refine ⟨_, Reader.magnitude?_point (hzeros 1) hdecimals (List.cons_ne_nil _ _), ?_⟩
    have hdigits : digitsFrom 0 (List.replicate 1 '0' ++ (List.replicate (-point).toNat '0' ++ run)) =
        digitsFrom 0 run := by
      rw [digitsFrom_zeros, digitsFrom_zeros]
    have hexponent : -(((-point).toNat + run.length : Nat) : Int) = point - run.length := by omega
    rw [Decimal.absValue, hdigits, List.length_append, List.length_replicate, hexponent]
  · next hpoint =>
    split
    · next hlt =>
      -- the point is among them
      have htake : ∀ c ∈ run.take point.toNat, c.isDigit = true :=
        fun c hc => hrun c (List.mem_of_mem_take hc)
      have hdrop : ∀ c ∈ run.drop point.toNat, c.isDigit = true :=
        fun c hc => hrun c (List.mem_of_mem_drop hc)
      have hsome : run.take point.toNat ≠ [] := by
        rw [← List.length_pos_iff, List.length_take]
        omega
      refine ⟨_, Reader.magnitude?_point htake hdrop hsome, ?_⟩
      have hexponent : -((run.length - point.toNat : Nat) : Int) = point - run.length := by omega
      rw [Decimal.absValue, List.take_append_drop, List.length_drop, hexponent]
    · next hle =>
      -- the point is behind them all and not written
      have hall := List.forall_mem_append.2 ⟨hrun, hzeros (point.toNat - run.length)⟩
      refine ⟨⟨false, digitsFrom 0 (run ++ List.replicate (point.toNat - run.length) '0'), 0⟩, ?_, ?_⟩
      · have happend : run ++ List.replicate (point.toNat - run.length) '0' ++
            (if false = true then ['.', '0'] else []) =
              run ++ List.replicate (point.toNat - run.length) '0' := List.append_nil _
        rw [happend]
        exact Reader.magnitude?_digits hall (List.append_ne_nil_of_left_ne_nil hne _)
      · have hexponent : point - run.length = ((point.toNat - run.length : Nat) : Int) := by omega
        rw [Decimal.absValue, digitsFrom_append, digitsFrom_replicate_zero, hexponent, zpow_natCast,
          zpow_zero, mul_one, Nat.cast_mul, Nat.cast_pow, Nat.cast_ofNat]

/-- The plain text of a positive double is read as a number that is rounded to the double. -/
theorem exists_magnitude?_chars {x : Float} {b : Binary} (hx : Binary.ofFloat? x = some b)
    (hpositive : b.negative = false) (hb : b.Canonical) :
    ∃ d, Reader.magnitude? (plain.chars x) = some d ∧ b.Rounds d.absValue := by
  obtain ⟨d, hd⟩ : ∃ d, b.shortest plain.tie = d := ⟨_, rfl⟩
  have hdigits := Binary.digits_shortest_ne_zero hb plain.tie
  have hrounds := Binary.rounds_shortest hb plain.tie
  have hnegative := Binary.negative_shortest plain.tie b
  rw [hd] at hdigits hrounds hnegative
  have hchars : plain.chars x = positionalText false (Nat.toDigits 10 d.digits) d.point := by
    rw [chars, hx]
    dsimp only
    rw [hd, decimalText, hnegative, hpositive, magnitudeText, if_neg hdigits]
    rfl
  obtain ⟨d', hread, hvalue⟩ := exists_magnitude?_positionalText
    (fun c (hc : c ∈ Nat.toDigits 10 d.digits) => isDigit_of_mem_toDigits hc) Nat.toDigits_ne_nil
    d.point
  have hexponent : d.point - (Nat.toDigits 10 d.digits).length = d.exponent := by
    rw [Decimal.point, digitCount]
    omega
  refine ⟨d', by rw [hchars, hread], ?_⟩
  rwa [hvalue, digitsFrom_toDigits, hexponent]

/-- The words for the values that are no numbers are no decimals. -/
theorem magnitude?_nonFiniteText (x : Float) : Reader.magnitude? (nonFiniteText x) = none := by
  unfold nonFiniteText
  split
  · decide
  · split <;> decide

end NumberStyle

/-! ## Positive doubles

The parts of a double and its value tell the same. This section goes from the one to the other,
where the laws of the decimal ask for parts. -/

namespace Double

open Float.Model (UnpackedFloat)

/-- A double is determined by its exact value. -/
theorem eq_of_unpack {x y : Float} (h : x.toModel.unpack = y.toModel.unpack) : x = y := by
  obtain ⟨m⟩ := x
  obtain ⟨n⟩ := y
  have hpack := pack_unpack_model m
  have hunpack : m.unpack = n.unpack := h
  rw [hunpack, pack_unpack_model] at hpack
  rw [hpack]

/-- A positive double is a finite number or infinity. Both are written, the second as a word. -/
theorem unpack_of_pos {x : Float} (h : 0.0 < x) :
    (∃ m e hm, x.toModel.unpack = .finite .positive m e hm) ∨
      x.toModel.unpack = .infinity .positive := by
  rw [pos_iff] at h
  cases hx : x.toModel.unpack with
  | notANumber => rw [hx] at h; exact nomatch h
  | zero s => rw [hx] at h; cases s <;> exact nomatch h
  | infinity s =>
    rw [hx] at h
    cases s with
    | positive => exact .inr rfl
    | negative => exact nomatch h
  | finite s m e hm =>
    rw [hx] at h
    cases s with
    | positive => exact .inl ⟨m, e, hm, rfl⟩
    | negative => exact nomatch h

/-- The parts of a double other than zero are canonical. -/
theorem canonical_parts {x : Float} {s : Float.Model.UnpackedFloat.Sign} {m : Nat} {e : Int}
    {hm : 0 < m} (h : x.toModel.unpack = .finite s m e hm) (negative : Bool) :
    Binary.Canonical ⟨negative, m, e⟩ := by
  have hcanonical := canonical_unpack x.toModel
  rw [h] at hcanonical
  obtain ⟨hlt, hfull⟩ := mantissa_of_canonical hcanonical
  have hleast : -1074 ≤ e := by
    rw [Canonical, targetExponent_eq] at hcanonical
    omega
  exact ⟨hm, hlt, hleast, hfull⟩

end Double

/-- What the plain text of a positive double is read as. Infinity has no decimal, and its word is
read as such elsewhere. -/
theorem magnitude?_plain_of_pos {x : Float} (h : 0.0 < x) :
    (x.toModel.unpack = .infinity .positive ∧
      Reader.magnitude? (NumberStyle.plain.chars x) = none) ∨
    ∃ m e hm d, x.toModel.unpack = .finite .positive m e hm ∧
      Reader.magnitude? (NumberStyle.plain.chars x) = some d ∧
      Binary.Rounds ⟨false, m, e⟩ d.absValue := by
  obtain ⟨m, e, hm, hx⟩ | hx := Double.unpack_of_pos h
  · have hparts : Binary.ofFloat? x = some ⟨false, m, e⟩ := by
      rw [Binary.ofFloat?_eq, hx]
      rfl
    obtain ⟨d, hread, hrounds⟩ :=
      NumberStyle.exists_magnitude?_chars hparts rfl (Double.canonical_parts hx false)
    exact .inr ⟨m, e, hm, d, hx, hread, hrounds⟩
  · have hparts : Binary.ofFloat? x = none := by
      rw [Binary.ofFloat?_eq, hx]
      rfl
    have hchars : NumberStyle.plain.chars x = NumberStyle.nonFiniteText x := by
      rw [NumberStyle.chars, hparts]
    exact .inl ⟨hx, by rw [hchars, NumberStyle.magnitude?_nonFiniteText]⟩

end Telescope
