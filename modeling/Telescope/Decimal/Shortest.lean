import Telescope.Decimal.Basic

/-!
# The shortest decimal of a double

The decimals that read back as a double form an interval around it: its ends lie halfway to the
two neighbouring doubles, and belong to it exactly if the significand is even. Of all decimals in
the interval the one with the fewest digits is chosen, and of several the one nearest to the
double.

The search goes through the number of digits. For each it looks at the two points of that decimal
grid next to the double: if any point of the grid lies in the interval, one of these two does. All
comparisons are between whole numbers, so nothing is rounded on the way.
-/

namespace Telescope

/-- Which of two equally near decimals is taken. -/
inductive Tie
  /-- the one whose last digit is even -/
  | even
  /-- the greater one -/
  | up
deriving DecidableEq, Repr

namespace Binary

/-- The interval of decimals that read back as a nonzero double, as a multiple of a common
fraction: all four numbers stand for themselves times `2 ^ (exponent - 2)`. -/
structure Interval where
  /-- the lower end -/
  lower : Nat
  /-- the double itself -/
  middle : Nat
  /-- the upper end -/
  upper : Nat
  /-- whether the ends belong to the interval -/
  closed : Bool

/-- Half the distance to the next double lies on either side; below a power of two the doubles are
twice as dense. -/
def interval (b : Binary) : Interval where
  lower := 4 * b.mantissa - if b.mantissa = hiddenBit ∧ b.exponent ≠ leastExponent then 1 else 2
  middle := 4 * b.mantissa
  upper := 4 * b.mantissa + 2
  closed := b.mantissa % 2 = 0

/-- The place of the decimal point of a nonzero fraction: the `point` with
`10 ^ (point - 1) ≤ num / den < 10 ^ point`. -/
def pointOf (num den : Nat) : Int :=
  if den ≤ num then digitCount (num / den)
  else 1 - (digitCount ((den + num - 1) / num - 1) : Int)

/-- The decimal with `count` digits that is nearest to `b` among those that read back as `b`, as
its digits and the power of ten they count; `none` if no decimal with so few digits does. -/
def withDigits? (tie : Tie) (b : Binary) (count : Nat) : Option (Nat × Int) :=
  let range := b.interval
  let shift := b.exponent - 2
  let point := pointOf (range.middle * powerOfTwo shift.toNat) (powerOfTwo (-shift).toNat)
  let place := point - count
  let scale := powerOfTwo shift.toNat * powerOfTen (-place).toNat
  let unit := powerOfTwo (-shift).toNat * powerOfTen place.toNat
  let below := range.middle * scale / unit
  let rest := range.middle * scale % unit
  let inside (digits : Nat) : Bool :=
    if range.closed then range.lower * scale ≤ digits * unit ∧ digits * unit ≤ range.upper * scale
    else range.lower * scale < digits * unit ∧ digits * unit < range.upper * scale
  let above := below + 1
  match inside below, inside above with
  | true, true =>
    if 2 * rest < unit then some (below, place)
    else if unit < 2 * rest then some (above, place)
    else match tie with
      | .even => some (if below % 2 = 0 then below else above, place)
      | .up => some (above, place)
  | true, false => some (below, place)
  | false, true => some (above, place)
  | false, false => none

/-- Drops final zeros, raising the power of ten instead. -/
def dropZeros : Nat → Nat × Int → Nat × Int
  | 0, d => d
  | fuel + 1, (digits, place) =>
    if digits ≠ 0 ∧ digits % 10 = 0 then dropZeros fuel (digits / 10, place + 1) else (digits, place)

/-- The shortest decimal that reads back as `b`. Seventeen digits tell all doubles apart, so the
search ends there; zero is a single digit. -/
def shortest (tie : Tie) (b : Binary) : Decimal :=
  if b.mantissa = 0 then ⟨b.negative, 0, 0⟩
  else
    let (digits, place) := ((List.range 17).findSome? fun n => b.withDigits? tie (n + 1)).getD (0, 0)
    let (digits, place) := dropZeros (digitCount digits) (digits, place)
    ⟨b.negative, digits, place⟩

/-- The sign is that of the double. -/
theorem negative_shortest (tie : Tie) (b : Binary) : (b.shortest tie).negative = b.negative := by
  unfold shortest
  split <;> rfl

end Binary

end Telescope
