import Telescope.Decimal.Reader
import Telescope.Json.Basic

/-!
# Reading JSON

`Json.read?` reads a whole text as one value, with blanks around it and between its parts. Each
reader takes a value from the front of a text and returns what follows it; `none` says that no value
stands there. A nested value begins further to the right than the one around it, so the length of the
text bounds the depth.
-/

namespace Telescope.Json

/-- The characters between parts. -/
def isSpace (c : Char) : Bool :=
  c == ' ' || c == '\t' || c == '\n' || c == '\r'

/-- The text without the blanks in front. -/
def skip (text : List Char) : List Char :=
  text.dropWhile isSpace

/-! ## Numbers -/

/-- The digits before the point: at least one, and more than one only if the first is not zero. -/
def whole? (text : List Char) : Option (List Char × List Char) :=
  match Reader.digits text with
  | ([], _) => none
  | ('0' :: _ :: _, _) => none
  | (digits, rest) => some (digits, rest)

/-- The digits after a point, at least one; without a point there are none. -/
def decimals? : List Char → Option (List Char × List Char)
  | '.' :: rest =>
    match Reader.digits rest with
    | ([], _) => none
    | (digits, rest) => some ('.' :: digits, rest)
  | rest => some ([], rest)

/-- The sign of an exponent, if it has one. -/
def exponentSign : List Char → List Char × List Char
  | '+' :: rest => (['+'], rest)
  | '-' :: rest => (['-'], rest)
  | rest => ([], rest)

/-- The exponent, with at least one digit; it may be missing altogether. -/
def exponent? : List Char → Option (List Char × List Char)
  | [] => some ([], [])
  | e :: rest =>
    if e = 'e' ∨ e = 'E' then
      let (sign, rest) := exponentSign rest
      match Reader.digits rest with
      | ([], _) => none
      | (digits, rest) => some (e :: (sign ++ digits), rest)
    else some ([], e :: rest)

/-- A minus sign, if there is one. -/
def minus : List Char → List Char × List Char
  | '-' :: rest => (['-'], rest)
  | rest => ([], rest)

/-- A number as it is written. -/
def literal? (text : List Char) : Option (List Char × List Char) := do
  let (sign, rest) := minus text
  let (whole, rest) ← whole? rest
  let (decimals, rest) ← decimals? rest
  let (exponent, rest) ← exponent? rest
  return (sign ++ whole ++ decimals ++ exponent, rest)

/-! ## Strings -/

/-- A part of a string. -/
inductive Piece
  /-- a character -/
  | plain (c : Char)
  /-- the number of an escape with four digits, half of a character or a whole one -/
  | unit (n : Nat)

/-- The value of a hexadecimal digit. -/
def hexDigit? (c : Char) : Option Nat :=
  if '0' ≤ c ∧ c ≤ '9' then some (c.toNat - '0'.toNat)
  else if 'a' ≤ c ∧ c ≤ 'f' then some (c.toNat - 'a'.toNat + 10)
  else if 'A' ≤ c ∧ c ≤ 'F' then some (c.toNat - 'A'.toNat + 10)
  else none

/-- The value of four hexadecimal digits. -/
def hex4? (a b c d : Char) : Option Nat := do
  return (((← hexDigit? a) * 16 + (← hexDigit? b)) * 16 + (← hexDigit? c)) * 16 + (← hexDigit? d)

/-- The character that an escape names. -/
def named? : Char → Option Char
  | '"' => some '"'
  | '\\' => some '\\'
  | '/' => some '/'
  | 'b' => some '\x08'
  | 'f' => some '\x0c'
  | 'n' => some '\n'
  | 'r' => some '\r'
  | 't' => some '\t'
  | _ => none

/-- The pieces of a string up to its closing quote. Control characters have to be escaped. -/
def pieces : List Char → Option (List Piece × List Char)
  | [] => none
  | '"' :: rest => some ([], rest)
  | '\\' :: 'u' :: a :: b :: c :: d :: rest => do
    let n ← hex4? a b c d
    let (ps, rest) ← pieces rest
    return (.unit n :: ps, rest)
  | '\\' :: e :: rest => do
    let c ← named? e
    let (ps, rest) ← pieces rest
    return (.plain c :: ps, rest)
  | c :: rest =>
    if c = '\\' ∨ c.toNat < 0x20 then none
    else do
      let (ps, rest) ← pieces rest
      return (.plain c :: ps, rest)

/-- Whether a number is the first half of a character. -/
def isUpperHalf (n : Nat) : Bool := 0xd800 ≤ n ∧ n < 0xdc00

/-- Whether a number is the second half of a character. -/
def isLowerHalf (n : Nat) : Bool := 0xdc00 ≤ n ∧ n < 0xe000

/-- The text of some pieces, if no half of a character stands alone. -/
def join? : List Piece → Option (List Char)
  | [] => some []
  | .plain c :: rest => (join? rest).map (c :: ·)
  | .unit a :: .unit b :: rest =>
    if isUpperHalf a then
      if isLowerHalf b then
        (join? rest).map (Char.ofNat (0x10000 + (a - 0xd800) * 0x400 + (b - 0xdc00)) :: ·)
      else none
    else if isLowerHalf a then none
    else (join? (.unit b :: rest)).map (Char.ofNat a :: ·)
  | .unit a :: rest =>
    if isUpperHalf a ∨ isLowerHalf a then none else (join? rest).map (Char.ofNat a :: ·)

/-- A string after its opening quote. -/
def string? (text : List Char) : Option (Option String × List Char) :=
  (pieces text).map fun (ps, rest) => ((join? ps).map String.ofList, rest)

/-! ## Values -/

/-- The name of a field, with the colon behind it. -/
def name? (text : List Char) : Option (Option String × List Char) :=
  match skip text with
  | '"' :: rest =>
    match string? rest with
    | none => none
    | some (name, rest) =>
      match skip rest with
      | ':' :: rest => some (name, rest)
      | _ => none
  | _ => none

mutual

/-- The value in front of a text. -/
def value : Nat → List Char → Option (Json × List Char)
  | 0, _ => none
  | depth + 1, text =>
    match skip text with
    | 'n' :: 'u' :: 'l' :: 'l' :: rest => some (.null, rest)
    | 't' :: 'r' :: 'u' :: 'e' :: rest => some (.bool true, rest)
    | 'f' :: 'a' :: 'l' :: 's' :: 'e' :: rest => some (.bool false, rest)
    | '"' :: rest => (string? rest).map fun (s, rest) => (.string s, rest)
    | '[' :: rest =>
      match skip rest with
      | ']' :: rest => some (.array [], rest)
      | rest =>
        match value depth rest with
        | none => none
        | some (x, rest) => (items depth rest).map fun (xs, rest) => (.array (x :: xs), rest)
    | '\x7b' :: rest =>
      match skip rest with
      | '\x7d' :: rest => some (.object [], rest)
      | rest =>
        match name? rest with
        | none => none
        | some (name, rest) =>
          match value depth rest with
          | none => none
          | some (x, rest) =>
            (fields depth rest).map fun (fs, rest) => (.object ((name, x) :: fs), rest)
    | rest => (literal? rest).map fun (literal, rest) => (.number literal, rest)

/-- The values that are left of an array. -/
def items : Nat → List Char → Option (List Json × List Char)
  | 0, _ => none
  | depth + 1, text =>
    match skip text with
    | ']' :: rest => some ([], rest)
    | ',' :: rest =>
      match value depth rest with
      | none => none
      | some (x, rest) => (items depth rest).map fun (xs, rest) => (x :: xs, rest)
    | _ => none

/-- The fields that are left of an object. -/
def fields : Nat → List Char → Option (List (Option String × Json) × List Char)
  | 0, _ => none
  | depth + 1, text =>
    match skip text with
    | '\x7d' :: rest => some ([], rest)
    | ',' :: rest =>
      match name? rest with
      | none => none
      | some (name, rest) =>
        match value depth rest with
        | none => none
        | some (x, rest) => (fields depth rest).map fun (fs, rest) => ((name, x) :: fs, rest)
    | _ => none

end

/-- The value of a whole text. -/
def read? (text : List Char) : Option Json :=
  match value (text.length + 1) text with
  | none => none
  | some (v, rest) => if (skip rest).isEmpty then some v else none

end Telescope.Json
