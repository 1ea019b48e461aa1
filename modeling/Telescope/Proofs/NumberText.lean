import Telescope.Decimal.Fixed
import Telescope.Decimal.Reader
import Telescope.Decimal.Style
import Telescope.Proofs.Blanks

/-!
# The texts of numbers

Numbers are written in few characters (`NumberMark`), whatever the value and the style
(`NumberStyle.numeric_chars`, `Fixed.numeric_chars`). None of them is a blank, so the text of a number
is one word of the line that it stands on (`NumberStyle.isWord_chars`, `Fixed.isWord_chars`). Whole
numbers of 64 bits are read back as they were written (`readUnsigned?_toDigits`).

The characters are a list that is a little too long, and it serves every style. What is shown with
it is always that something is not there: a blank, a comma, an underscore or a slash.
-/

namespace Telescope

open Text (isBlank BlankFree IsWord)

/-! ## Characters

All that is needed of a character is whether it may stand in a number. The classes are disjoint from
what separates texts, which is settled by looking at each of the characters. -/

/-- A digit is no blank. -/
theorem isBlank_of_isDigit {c : Char} (h : c.isDigit = true) : isBlank c = false := by
  obtain ⟨hlow, hhigh⟩ := Char.isDigit_iff_toNat.1 h
  have hzero : '0'.toNat = 48 := rfl
  have hnine : '9'.toNat = 57 := rfl
  simp only [isBlank, decide_eq_false_iff_not]
  omega

/-- The characters in which numbers are written: the digits, the point, the signs, the mark of the
exponent, and the letters of the values that are no numbers. -/
def NumberMark (c : Char) : Prop :=
  c.isDigit = true ∨ c ∈ ['.', '-', '+', 'e', 'i', 'n', 'f', 'N', 'a']

instance (c : Char) : Decidable (NumberMark c) := inferInstanceAs (Decidable (_ ∨ _))

/-- None of the characters of numbers is a blank. -/
theorem NumberMark.not_blank {c : Char} (h : NumberMark c) : isBlank c = false := by
  obtain hdigit | hother := h
  · exact isBlank_of_isDigit hdigit
  · have hmarks : (['.', '-', '+', 'e', 'i', 'n', 'f', 'N', 'a'].all fun c => !isBlank c) = true := by
      decide
    simpa using List.all_eq_true.1 hmarks c hother

/-- All characters of the text are those of numbers. -/
def Numeric (text : List Char) : Prop := ∀ c ∈ text, NumberMark c

instance (text : List Char) : Decidable (Numeric text) := List.decidableBAll NumberMark text

namespace Numeric

/-- Numeric texts can be put together, with the laws of lists for this. -/
theorem append {xs ys : List Char} (hxs : Numeric xs) (hys : Numeric ys) : Numeric (xs ++ ys) :=
  List.forall_mem_append.2 ⟨hxs, hys⟩

/-- A character can be put in front. -/
theorem cons {c : Char} {text : List Char} (hc : NumberMark c) (h : Numeric text) :
    Numeric (c :: text) :=
  List.forall_mem_cons.2 ⟨hc, h⟩

/-- A beginning of a numeric text is one. -/
theorem take {text : List Char} (h : Numeric text) (n : Nat) : Numeric (text.take n) :=
  fun c hc => h c (List.mem_of_mem_take hc)

/-- What follows a beginning is numeric as well. -/
theorem drop {text : List Char} (h : Numeric text) (n : Nat) : Numeric (text.drop n) :=
  fun c hc => h c (List.mem_of_mem_drop hc)

/-- A numeric text has no blank in it, so no line is divided there. -/
theorem blankFree {text : List Char} (h : Numeric text) : BlankFree text :=
  fun c hc => (h c hc).not_blank

/-- A character that is in no number is not in the text. This is how the marks between numbers are
found again. -/
theorem not_mem {text : List Char} (h : Numeric text) {c : Char} (hc : ¬ NumberMark c) : c ∉ text :=
  fun hmem => hc (h c hmem)

end Numeric

/-! ## Digits

A whole number is a run of digits, and zeros are put before or behind some. Nothing but digits comes
in. -/

/-- The digits of a number are decimal digits. -/
theorem isDigit_of_mem_toDigits {n : Nat} {c : Char} (h : c ∈ Nat.toDigits 10 n) :
    c.isDigit = true :=
  Nat.isDigit_of_mem_toDigits (by decide) (by decide) h

/-- So they are characters of numbers. -/
theorem numeric_toDigits (n : Nat) : Numeric (Nat.toDigits 10 n) :=
  fun _ hc => .inl (isDigit_of_mem_toDigits hc)

/-- A whole number has at least one digit and no blank, so its text is a word. -/
theorem isWord_toDigits (n : Nat) : IsWord (Nat.toDigits 10 n) :=
  ⟨Nat.toDigits_ne_nil, (numeric_toDigits n).blankFree⟩

/-- A number but zero starts with another digit than zero. -/
theorem head?_toDigits {n : Nat} (h : 0 < n) : (Nat.toDigits 10 n).head? ≠ some '0' := by
  induction n using Nat.strongRecOn with
  | ind n ih =>
    by_cases hlt : n < 10
    · have hdigit : ∀ m < 10, 0 < m → [Nat.digitChar m].head? ≠ some '0' := by decide
      rw [Nat.toDigits_of_lt_base hlt]
      exact hdigit n hlt h
    · rw [Nat.toDigits_of_base_le (by decide) (Nat.le_of_not_lt hlt),
        List.head?_append_of_ne_nil _ Nat.toDigits_ne_nil]
      exact ih (n / 10) (Nat.div_lt_self h (by decide)) (Nat.div_pos (Nat.le_of_not_lt hlt) (by decide))

/-- A zero is a digit. -/
theorem isDigit_of_mem_zeros {n : Nat} {c : Char} (h : c ∈ List.replicate n '0') :
    c.isDigit = true := by
  rw [List.eq_of_mem_replicate h]
  rfl

/-- Some zeros are characters of numbers. -/
theorem numeric_zeros (n : Nat) : Numeric (List.replicate n '0') :=
  fun _ hc => .inl (isDigit_of_mem_zeros hc)

/-- A sign is, too, if there is one. -/
theorem numeric_sign (negative : Bool) : Numeric (if negative then ['-'] else []) := by
  cases negative <;> decide

/-- The words for the values that are no numbers. -/
theorem numeric_nonFiniteText (x : Float) : Numeric (NumberStyle.nonFiniteText x) := by
  unfold NumberStyle.nonFiniteText
  split
  · decide
  · split <;> decide

/-- There is a word for each of these values. -/
theorem nonFiniteText_ne_nil (x : Float) : NumberStyle.nonFiniteText x ≠ [] := by
  unfold NumberStyle.nonFiniteText
  split
  · decide
  · split <;> decide

namespace Reader

/-- Digits are taken up to the first other character. -/
theorem digits_of_digits {run rest : List Char} (hrun : ∀ c ∈ run, c.isDigit = true)
    (hrest : ∀ c ∈ rest.head?, c.isDigit = false) : digits (run ++ rest) = (run, rest) := by
  have hstop : rest.takeWhile Char.isDigit = [] ∧ rest.dropWhile Char.isDigit = rest := by
    cases rest with
    | nil => exact ⟨rfl, rfl⟩
    | cons c rest =>
      have hc : ¬ c.isDigit = true := by simp [hrest c rfl]
      exact ⟨List.takeWhile_cons_of_neg hc, List.dropWhile_cons_of_neg hc⟩
  rw [digits, List.takeWhile_append_of_pos hrun, List.dropWhile_append_of_pos hrun, hstop.1,
    hstop.2, List.append_nil]

end Reader

/-! ## Fixed places

A number with fixed places is a row of digits with a point in it. If there are too few, zeros are
put in front. -/

namespace Fixed

/-- The point and the zeros in front are characters of numbers. -/
theorem numeric_placed (places units : Nat) : Numeric (placed places units) := by
  have hpadded : Numeric (List.replicate (places + 1 - (Nat.toDigits 10 units).length) '0' ++
      Nat.toDigits 10 units) := (numeric_zeros _).append (numeric_toDigits units)
  unfold placed
  dsimp only
  split
  · exact hpadded
  · exact (hpadded.take _).append (.cons (by decide) (hpadded.drop _))

/-- There is a digit before the point in any case. -/
theorem placed_ne_nil (places units : Nat) : placed places units ≠ [] := by
  unfold placed
  dsimp only
  split
  · exact List.append_ne_nil_of_right_ne_nil _ Nat.toDigits_ne_nil
  · exact List.append_ne_nil_of_right_ne_nil _ (List.cons_ne_nil _ _)

/-- The text of a double with a fixed number of places has only characters of numbers. -/
theorem numeric_chars (places : Nat) (x : Float) : Numeric (chars places x) := by
  unfold chars
  cases Binary.ofFloat? x with
  | some b => exact (numeric_sign b.negative).append (numeric_placed places _)
  | none => exact numeric_nonFiniteText x

/-- So it is one word. -/
theorem isWord_chars (places : Nat) (x : Float) : IsWord (chars places x) := by
  refine ⟨?_, (numeric_chars places x).blankFree⟩
  unfold chars
  cases Binary.ofFloat? x with
  | some b => exact List.append_ne_nil_of_right_ne_nil _ (placed_ne_nil places _)
  | none => exact nonFiniteText_ne_nil x

end Fixed

/-! ## Styles

Every style writes the same digits, with a point among them or an exponent behind them. Where the
digits come from plays no role here. -/

namespace NumberStyle

/-- The mark of a whole number, if the style has one. -/
theorem numeric_fraction (wholeFraction : Bool) :
    Numeric (if wholeFraction then ['.', '0'] else []) := by
  cases wholeFraction <;> decide

/-- Digits with a point among them, or zeros on one side. -/
theorem numeric_positionalText (wholeFraction : Bool) {digits : List Char} (h : Numeric digits)
    (point : Int) : Numeric (positionalText wholeFraction digits point) := by
  unfold positionalText
  split
  · exact .cons (by decide) (.cons (by decide) ((numeric_zeros _).append h))
  · split
    · exact (h.take _).append (.cons (by decide) (h.drop _))
    · exact (h.append (numeric_zeros _)).append (numeric_fraction wholeFraction)

/-- Digits with an exponent behind them. -/
theorem numeric_exponentText (plusSign : Bool) {digits : List Char} (h : Numeric digits)
    (point : Int) : Numeric (exponentText plusSign digits point) := by
  have hsign : Numeric (if point - 1 < 0 then ['-'] else if plusSign then ['+'] else []) := by
    split
    · decide
    · cases plusSign <;> decide
  have hfraction : Numeric (if digits.length ≤ 1 then [] else '.' :: digits.drop 1) := by
    split
    · decide
    · exact .cons (by decide) (h.drop 1)
  exact ((h.take 1).append hfraction).append
    (.cons (by decide) (hsign.append (numeric_toDigits _)))

/-- A number without its sign is written in one of the two ways. -/
theorem numeric_magnitudeText (style : NumberStyle) (d : Decimal) :
    Numeric (style.magnitudeText d) := by
  unfold magnitudeText
  split
  · exact .cons (by decide) (numeric_fraction style.wholeFraction)
  · dsimp only
    split
    · exact numeric_positionalText _ (numeric_toDigits _) _
    · exact numeric_exponentText _ (numeric_toDigits _) _

/-- Digits are not lost when a point is put among them. -/
theorem positionalText_ne_nil (wholeFraction : Bool) {digits : List Char} (h : digits ≠ [])
    (point : Int) : positionalText wholeFraction digits point ≠ [] := by
  unfold positionalText
  split
  · exact List.cons_ne_nil _ _
  · split
    · exact List.append_ne_nil_of_right_ne_nil _ (List.cons_ne_nil _ _)
    · simp [h]

/-- No number is written as nothing. -/
theorem magnitudeText_ne_nil (style : NumberStyle) (d : Decimal) : style.magnitudeText d ≠ [] := by
  unfold magnitudeText
  split
  · exact List.cons_ne_nil _ _
  · dsimp only
    split
    · exact positionalText_ne_nil _ Nat.toDigits_ne_nil _
    · exact List.append_ne_nil_of_right_ne_nil _ (List.cons_ne_nil _ _)

/-- The text of a double has only characters of numbers. -/
theorem numeric_chars (style : NumberStyle) (x : Float) : Numeric (style.chars x) := by
  unfold chars
  cases Binary.ofFloat? x with
  | some b => exact (numeric_sign _).append (numeric_magnitudeText style _)
  | none => exact numeric_nonFiniteText x

/-- The text of a double is one word. -/
theorem isWord_chars (style : NumberStyle) (x : Float) : IsWord (style.chars x) := by
  refine ⟨?_, (style.numeric_chars x).blankFree⟩
  unfold chars
  cases Binary.ofFloat? x with
  | some b => exact List.append_ne_nil_of_right_ne_nil _ (magnitudeText_ne_nil style _)
  | none => exact nonFiniteText_ne_nil x

end NumberStyle

/-! ## Whole numbers

A whole number is read digit by digit, and each digit is worth its place. The bound is that of 64
bits, from where on nothing is read. -/

/-- The digits of a number are worth the number. The reader starts with what was read before, so the
induction needs any start. -/
theorem digitsFrom_eq_ofDigitChars {digits : List Char} (h : ∀ c ∈ digits, c.isDigit = true)
    (start : Nat) : digitsFrom start digits = Nat.ofDigitChars 10 digits start := by
  induction digits generalizing start with
  | nil => rfl
  | cons c digits ih =>
    obtain ⟨hc, hdigits⟩ := List.forall_mem_cons.1 h
    have hvalue : (digitValue? c).getD 0 = c.toNat - '0'.toNat := by
      rw [digitValue?, if_pos hc, Option.getD_some]
    have hfirst : digitsFrom start (c :: digits) =
        digitsFrom (start * 10 + (digitValue? c).getD 0) digits := rfl
    rw [hfirst, hvalue, ih hdigits, Nat.ofDigitChars_cons, Nat.mul_comm]

/-- The digits of a number are worth it. -/
theorem digitsFrom_toDigits (n : Nat) : digitsFrom 0 (Nat.toDigits 10 n) = n := by
  rw [digitsFrom_eq_ofDigitChars fun _ hc => isDigit_of_mem_toDigits hc,
    Nat.ofDigitChars_ten_toDigits]

/-- Digits are read as the number they are worth, if it has 64 bits. More digits than needed may be
in front. -/
theorem readUnsigned?_of_digits {digits : List Char} (hne : digits ≠ [])
    (hdigits : ∀ c ∈ digits, c.isDigit = true) (hlt : digitsFrom 0 digits < UInt64.size) :
    readUnsigned? digits = some (UInt64.ofNat (digitsFrom 0 digits)) := by
  unfold readUnsigned?
  split
  · -- a plus sign is no digit
    exact absurd (hdigits '+' List.mem_cons_self) (by decide)
  · dsimp only
    rw [if_neg]
    rintro (hempty | hother | hlarge)
    · exact hne (List.isEmpty_iff.1 hempty)
    · exact hother (List.all_eq_true.2 hdigits)
    · exact absurd hlt (Nat.not_lt.2 hlarge)

/-- A 64-bit number is read back as it was written. -/
theorem readUnsigned?_toDigits (n : UInt64) :
    readUnsigned? (Nat.toDigits 10 n.toNat) = some n := by
  have hvalue := digitsFrom_toDigits n.toNat
  have hread := readUnsigned?_of_digits Nat.toDigits_ne_nil
    (fun _ hc => isDigit_of_mem_toDigits hc) (by rw [hvalue]; exact n.toNat_lt_size)
  rw [hread, hvalue, UInt64.ofNat_toNat]

end Telescope
