import Telescope.Json.Reader

/-!
# Numbers in JSON

A number is read as a double in two steps. Its digits make a 64-bit significand, as far as they fit;
digits of the whole part that no longer fit raise the power of ten instead, and further decimals are
dropped. Then the significand is multiplied or divided by the power of ten. A number too great for a
double is none; one too small is zero.

A number is read as an unsigned one only if it has digits alone.
-/

namespace Telescope.Json

namespace Number

/-- The number that digits continue as long as it has 64 bits, and the digits left over. -/
def takeDigits (start : Nat) : List Char → Nat × List Char
  | [] => (start, [])
  | c :: rest =>
    let next := digitsFrom start [c]
    if next < UInt64.size then takeDigits next rest else (start, c :: rest)

/-- The significand, and the power of ten that belongs to it. -/
def significand (whole decimals : List Char) : UInt64 × Int :=
  let (start, beyond) := takeDigits 0 whole
  let (n, dropped) := takeDigits start decimals
  (UInt64.ofNat n, (beyond.length : Int) - ((decimals.length : Int) - dropped.length))

/-- The greatest power of ten that is a double. -/
def greatestPower : Nat := 308

/-- The double nearest to a power of ten. -/
def power (n : Nat) : Float := Float.ofScientific 1 false n

/-- A double divided by a power of ten, in steps of the greatest one. -/
def divide (x : Float) (n : Nat) : Float :=
  if n ≤ greatestPower then x / power n
  else if x == 0.0 then x
  else divide (x / power greatestPower) (n - greatestPower)
termination_by n
decreasing_by unfold greatestPower at *; omega

/-- A double multiplied by a power of ten, if the product is finite. -/
def multiply? (x : Float) (n : Nat) : Option Float :=
  if n ≤ greatestPower then
    let product := x * power n
    if product.isInf then none else some product
  else if x == 0.0 then some x
  else none

/-- A double scaled by a power of ten. -/
def scale? (x : Float) (exponent : Int) : Option Float :=
  if exponent < 0 then some (divide x exponent.natAbs) else multiply? x exponent.natAbs

/-- The exponent of a number, zero if it has none. -/
def exponent : List Char → Int
  | [] => 0
  | _ :: rest =>
    let (negative, digits) := Reader.sign rest
    let size : Int := digitsFrom 0 digits
    if negative then -size else size

/-- The double that a number stands for. -/
def float? (literal : List Char) : Option Float :=
  let (negative, rest) := Reader.sign literal
  let (whole, rest) := Reader.digits rest
  let (decimals, rest) := Reader.fraction rest
  let (n, power) := significand whole decimals
  (scale? n.toFloat (power + exponent rest)).map fun x => if negative then -x else x

/-- The unsigned number that a number stands for. -/
def unsigned? (literal : List Char) : Option UInt64 :=
  if literal.all Char.isDigit then readUnsigned? literal else none

end Number

/-! ## Values as what they are read as -/

/-- A number as a double. -/
def float? : Json → Option Float
  | .number literal => Number.float? literal
  | _ => none

/-- A number as an unsigned one. -/
def unsigned? : Json → Option UInt64
  | .number literal => Number.unsigned? literal
  | _ => none

/-- A string. -/
def text? : Json → Option String
  | .string s => s
  | _ => none

/-- A truth value. -/
def bool? : Json → Option Bool
  | .bool b => some b
  | _ => none

/-- An array whose values can all be read. -/
def listOf? {α : Type} (read? : Json → Option α) : Json → Option (List α)
  | .array items => items.mapM read?
  | _ => none

end Telescope.Json
