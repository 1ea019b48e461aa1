/-!
# Decimal numbers

A decimal number is a whole number of units of a power of ten. This module holds

* `Decimal`, the number itself, and `Decimal.toFloat`, the double nearest to it;
* `Binary`, the exact value of a finite double, `mantissa · 2 ^ exponent`.

The shortest decimal of a double (`Decimal.Shortest`), its written forms (`Decimal.Style`,
`Decimal.Fixed`) and the reader (`Decimal.Reader`) are built on these two.
-/

namespace Telescope

/-! ## Powers -/

/-- The power of two with this exponent. -/
def powerOfTwo (n : Nat) : Nat := Nat.pow 2 n

/-- The power of ten with this exponent. -/
def powerOfTen (n : Nat) : Nat := Nat.pow 10 n

/-- The first power of two is one. -/
theorem powerOfTwo_zero : powerOfTwo 0 = 1 := rfl

/-- Powers of two are positive. -/
theorem powerOfTwo_pos (n : Nat) : 0 < powerOfTwo n := Nat.pow_pos Nat.two_pos

/-- So are powers of ten. -/
theorem powerOfTen_pos (n : Nat) : 0 < powerOfTen n := Nat.pow_pos (by decide)

/-! ## Digits -/

/-- The number of decimal digits of `n`; zero has one. -/
def digitCount (n : Nat) : Nat :=
  (Nat.toDigits 10 n).length

/-- Every number has a digit, also zero. -/
theorem digitCount_pos (n : Nat) : 0 < digitCount n :=
  List.length_pos_iff.2 Nat.toDigits_ne_nil

/-- The value of one decimal digit, `none` for any other character. -/
def digitValue? (c : Char) : Option Nat :=
  if c.isDigit then some (c.toNat - '0'.toNat) else none

/-- The number that a run of digits continues, read from the left: `digitsFrom 12 ['3']` is 123.
Characters that are no digits do not occur in such a run and count as nothing. -/
def digitsFrom (start : Nat) (digits : List Char) : Nat :=
  digits.foldl (fun total c => total * 10 + (digitValue? c).getD 0) start

/-- Digits may be read in two goes, which is how those before a point and those behind it are put
together. -/
theorem digitsFrom_append (start : Nat) (xs ys : List Char) :
    digitsFrom start (xs ++ ys) = digitsFrom (digitsFrom start xs) ys := by
  simp [digitsFrom, List.foldl_append]

/-! ## Decimal numbers -/

/-- The number `digits · 10 ^ exponent`, negated if `negative`. A negative zero is kept apart from
zero, as doubles do. -/
structure Decimal where
  /-- the sign -/
  negative : Bool
  /-- the digits, as one whole number -/
  digits : Nat
  /-- the power of ten that the last digit counts -/
  exponent : Int
deriving DecidableEq, Repr

namespace Decimal

/-- The place of the decimal point, counted from before the first digit: the number is
`0.d₁d₂d₃… · 10 ^ point`. -/
def point (d : Decimal) : Int :=
  digitCount d.digits + d.exponent

/-- The magnitude of the double nearest to the number. Beyond `10 ^ 310` every number rounds to
infinity and below `10 ^ -330` every number rounds to zero, so these need no power of ten. -/
def magnitude (d : Decimal) : Float :=
  if d.digits = 0 then 0.0
  else if d.point > 310 then Float.ofScientific 1 false 400
  else if d.point < -330 then 0.0
  else if d.exponent < 0 then Float.ofScientific d.digits true d.exponent.natAbs
  else Float.ofScientific d.digits false d.exponent.natAbs

/-- The double nearest to the number, ties to the even one, with its sign. -/
def toFloat (d : Decimal) : Float :=
  if d.negative then -d.magnitude else d.magnitude

end Decimal

/-! ## Exact values of doubles -/

/-- The finite double `mantissa · 2 ^ exponent`, negated if `negative`. -/
structure Binary where
  /-- the sign bit -/
  negative : Bool
  /-- the significand as a whole number, below `2 ^ 53` -/
  mantissa : Nat
  /-- the power of two that the last bit counts -/
  exponent : Int
deriving DecidableEq, Repr

namespace Binary

/-- The least exponent of a double, shared by zero and the subnormal numbers. -/
def leastExponent : Int := -1074

/-- The significand's hidden bit. -/
def hiddenBit : Nat := powerOfTwo 52

/-- The parts of a double, `none` for infinities and NaN. -/
def ofFloat? (x : Float) : Option Binary :=
  let bits := x.toBits.toNat
  let negative := bits / powerOfTwo 63 = 1
  let field : Nat := bits / hiddenBit % 2048
  let fraction := bits % hiddenBit
  if field = 2047 then none
  else if field = 0 then some ⟨negative, fraction, leastExponent⟩
  else some ⟨negative, fraction + hiddenBit, (field : Int) - 1075⟩

/-- The magnitude as a fraction of whole numbers: numerator and denominator. -/
def fraction (b : Binary) : Nat × Nat :=
  (b.mantissa * powerOfTwo b.exponent.toNat, powerOfTwo (-b.exponent).toNat)

end Binary

end Telescope
