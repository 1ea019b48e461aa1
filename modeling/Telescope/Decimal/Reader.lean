import Telescope.Decimal.Basic

/-!
# Reading numbers

Two readers of a whole text, each `none` unless all of it is a number:

* `readFloat?` takes an optional sign, digits with an optional decimal point, an optional exponent,
  or one of the words `inf`, `infinity` and `nan` in any case;
* `readUnsigned?` takes an optional plus sign and the digits of a 64-bit number.
-/

namespace Telescope

namespace Reader

/-- The sign in front of a number: whether it is a minus, and what follows. -/
def sign : List Char → Bool × List Char
  | '-' :: rest => (true, rest)
  | '+' :: rest => (false, rest)
  | rest => (false, rest)

/-- The digits in front of a text, and what follows them. -/
def digits (text : List Char) : List Char × List Char :=
  (text.takeWhile Char.isDigit, text.dropWhile Char.isDigit)

/-- The fraction after a decimal point; without a point there is none. -/
def fraction : List Char → List Char × List Char
  | '.' :: rest => digits rest
  | rest => ([], rest)

/-- The exponent that ends a number, zero if the text is at its end. -/
def exponent? : List Char → Option Int
  | [] => some 0
  | e :: rest =>
    if e = 'e' ∨ e = 'E' then
      let (negative, rest) := sign rest
      let (run, rest) := digits rest
      if run.isEmpty ∨ ¬ rest.isEmpty then none
      else
        let size : Int := digitsFrom 0 run
        some (if negative then -size else size)
    else none

/-- The value of an unsigned decimal number. -/
def magnitude? (text : List Char) : Option Decimal :=
  let (whole, rest) := digits text
  let (decimals, rest) := fraction rest
  if whole.isEmpty ∧ decimals.isEmpty then none
  else (exponent? rest).map fun e =>
    ⟨false, digitsFrom 0 (whole ++ decimals), e - (decimals.length : Int)⟩

/-- The words for the values that are no numbers. -/
def word? (text : List Char) : Option Float :=
  match text.map Char.toLower with
  | ['i', 'n', 'f'] | ['i', 'n', 'f', 'i', 'n', 'i', 't', 'y'] => some (1.0 / 0.0)
  | ['n', 'a', 'n'] => some (0.0 / 0.0)
  | _ => none

end Reader

/-- The double that a text denotes, correctly rounded; too great a number is infinite. -/
def readFloat? (text : List Char) : Option Float :=
  let (negative, rest) := Reader.sign text
  let magnitude := (Reader.word? rest).or ((Reader.magnitude? rest).map Decimal.toFloat)
  magnitude.map fun x => if negative then -x else x

/-- The 64-bit number that a text denotes. -/
def readUnsigned? (text : List Char) : Option UInt64 :=
  let run := match text with
    | '+' :: rest => rest
    | _ => text
  let n := digitsFrom 0 run
  if run.isEmpty ∨ ¬ run.all Char.isDigit ∨ UInt64.size ≤ n then none else some (UInt64.ofNat n)

end Telescope
