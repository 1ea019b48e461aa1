import Telescope.Decimal.Basic

/-!
# Doubles with a fixed number of decimal places

The exact value of the double is rounded to the wanted number of places; a half goes to the even
neighbour. The value is a fraction of whole numbers, so the rounding itself is exact.
-/

namespace Telescope

/-- The quotient rounded to the nearest whole number, a half to the even one. -/
def roundDiv (num den : Nat) : Nat :=
  let below := num / den
  let rest := num % den
  if 2 * rest < den then below
  else if den < 2 * rest then below + 1
  else if below % 2 = 0 then below else below + 1

/-- Rounding moves a quotient by at most half a unit. -/
theorem roundDiv_near (num den : Nat) (h : 0 < den) :
    2 * (roundDiv num den * den) ≤ 2 * num + den ∧ 2 * num ≤ 2 * (roundDiv num den * den) + den := by
  have hdiv := Nat.div_add_mod num den
  have hlt := Nat.mod_lt num h
  have hcomm : den * (num / den) = num / den * den := Nat.mul_comm _ _
  have hnext : (num / den + 1) * den = num / den * den + den := Nat.add_one_mul _ _
  unfold roundDiv
  dsimp only
  split
  · omega
  · split
    · omega
    · split <;> omega

namespace Fixed

/-- A whole number of units of the last place, with the decimal point put in. -/
def placed (places : Nat) (units : Nat) : List Char :=
  let digits := Nat.toDigits 10 units
  let padded := List.replicate (places + 1 - digits.length) '0' ++ digits
  let whole := padded.length - places
  if places = 0 then padded else padded.take whole ++ '.' :: padded.drop whole

/-- The text of a double with `places` decimal places. -/
def chars (places : Nat) (x : Float) : List Char :=
  match Binary.ofFloat? x with
  | some b =>
    let (num, den) := b.fraction
    (if b.negative then ['-'] else []) ++ placed places (roundDiv (num * powerOfTen places) den)
  | none => if x.isNaN then "NaN".toList else if x < 0.0 then "-inf".toList else "inf".toList

/-- The text of a double with `places` decimal places. -/
def write (places : Nat) (x : Float) : String :=
  String.ofList (chars places x)

end Fixed

end Telescope
