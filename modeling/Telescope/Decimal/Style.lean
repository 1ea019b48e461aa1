import Telescope.Decimal.Shortest

/-!
# Written forms of doubles

Every text of a double shows its shortest decimal; the texts differ in where they change from
positional to exponent form and in a few marks. A `NumberStyle` holds these
decisions, and `NumberStyle.write` carries them out.

The styles of this library are values of the modules that write the text in question; the two
general ones stand here.
-/

namespace Telescope

/-- How a double is written. -/
structure NumberStyle where
  /-- the places of the decimal point that are written positionally, from the first to the last;
  `none` writes every number positionally -/
  positional : Option (Int × Int)
  /-- whether a whole number in positional form ends in `.0` -/
  wholeFraction : Bool
  /-- whether a positive exponent carries a plus sign -/
  plusSign : Bool
  /-- which of two equally near decimals is shown -/
  tie : Tie
deriving DecidableEq, Repr

namespace NumberStyle

/-- Plain form: never an exponent, and a whole number has no fraction. -/
def plain : NumberStyle where
  positional := none
  wholeFraction := false
  plusSign := false
  tie := .up

/-- Inspection form: an exponent below `1e-4` and from `1e16` on, and a fraction always. -/
def inspection : NumberStyle where
  positional := some (-3, 16)
  wholeFraction := true
  plusSign := false
  tie := .up

/-- Whether a number with its decimal point at `point` is written positionally. -/
def isPositional (style : NumberStyle) (point : Int) : Bool :=
  match style.positional with
  | none => true
  | some (first, last) => first ≤ point ∧ point ≤ last

/-- The digits with a decimal point after `point` of them, filled up with zeros. -/
def positionalText (wholeFraction : Bool) (digits : List Char) (point : Int) : List Char :=
  if point ≤ 0 then '0' :: '.' :: (List.replicate (-point).toNat '0' ++ digits)
  else if point.toNat < digits.length then
    digits.take point.toNat ++ '.' :: digits.drop point.toNat
  else
    digits ++ List.replicate (point.toNat - digits.length) '0'
      ++ (if wholeFraction then ['.', '0'] else [])

/-- The first digit, the others as a fraction, and the exponent. -/
def exponentText (plusSign : Bool) (digits : List Char) (point : Int) : List Char :=
  let exponent := point - 1
  let sign := if exponent < 0 then ['-'] else if plusSign then ['+'] else []
  let fraction := if digits.length ≤ 1 then [] else '.' :: digits.drop 1
  digits.take 1 ++ fraction ++ 'e' :: (sign ++ Nat.toDigits 10 exponent.natAbs)

/-- A decimal without its sign. -/
def magnitudeText (style : NumberStyle) (d : Decimal) : List Char :=
  if d.digits = 0 then '0' :: (if style.wholeFraction then ['.', '0'] else [])
  else
    let digits := Nat.toDigits 10 d.digits
    if style.isPositional d.point then positionalText style.wholeFraction digits d.point
    else exponentText style.plusSign digits d.point

/-- A decimal with its sign. -/
def decimalText (style : NumberStyle) (d : Decimal) : List Char :=
  (if d.negative then ['-'] else []) ++ style.magnitudeText d

/-- The text of the three values that are no numbers. -/
def nonFiniteText (x : Float) : List Char :=
  if x.isNaN then "NaN".toList else if x < 0.0 then "-inf".toList else "inf".toList

/-- The text of a double as a list of characters. -/
def chars (style : NumberStyle) (x : Float) : List Char :=
  match Binary.ofFloat? x with
  | some b => style.decimalText (b.shortest style.tie)
  | none => nonFiniteText x

/-- The text of a double. -/
def write (style : NumberStyle) (x : Float) : String :=
  String.ofList (style.chars x)

end NumberStyle

end Telescope
