import Telescope.Decimal.Style

/-!
# JSON

`Json` is the tree of a JSON text, and `Json.text` writes it without blanks. Numbers are kept as they
are written, because whether a number is in range depends on what it is read as
(`Json.Number`). A string whose escapes stand for no text, since they leave half a surrogate pair
alone, has no value; where nobody asks for it that does no harm.
-/

namespace Telescope

/-- A JSON value. -/
inductive Json
  /-- the value that says nothing -/
  | null
  /-- a truth value -/
  | bool (b : Bool)
  /-- a number, as it is written -/
  | number (literal : List Char)
  /-- a string, unless its escapes stand for no text -/
  | string (text : Option String)
  /-- some values in order -/
  | array (items : List Json)
  /-- named values in order -/
  | object (fields : List (Option String × Json))

namespace Json

instance : Inhabited Json := ⟨.null⟩

/-! ## Values of other types -/

/-- A text. -/
def ofText (text : String) : Json := .string (some text)

/-- How doubles are written: with an exponent below `1e-5` and from `1e16` on, a fraction always, and
a plus sign in front of positive exponents. -/
def numberStyle : NumberStyle where
  positional := some (-4, 16)
  wholeFraction := true
  plusSign := true
  tie := .even

/-- A double; one that is no number says nothing. -/
def ofFloat (x : Float) : Json :=
  if x.isFinite then .number (numberStyle.chars x) else .null

/-- A whole number. -/
def ofNat (n : Nat) : Json := .number (Nat.toDigits 10 n)

/-- Named values. -/
def ofFields (fields : List (String × Json)) : Json :=
  .object (fields.map fun (name, value) => (some name, value))

/-! ## Text -/

/-- One character in a string. -/
def escaped (c : Char) : List Char :=
  match c with
  | '"' => ['\\', '"']
  | '\\' => ['\\', '\\']
  | '\x08' => ['\\', 'b']
  | '\t' => ['\\', 't']
  | '\n' => ['\\', 'n']
  | '\x0c' => ['\\', 'f']
  | '\r' => ['\\', 'r']
  | _ =>
    if c.toNat < 0x20 then
      ['\\', 'u', '0', '0', Nat.digitChar (c.toNat / 16), Nat.digitChar (c.toNat % 16)]
    else [c]

/-- A string between quotes. One without a value is written as half a surrogate pair, which has no
value either. -/
def stringText (text : Option String) : List Char :=
  match text with
  | some s => '"' :: (s.toList.flatMap escaped ++ ['"'])
  | none => ['"', '\\', 'u', 'd', '8', '0', '0', '"']

mutual

/-- The text of a value. -/
def text : Json → List Char
  | .null => ['n', 'u', 'l', 'l']
  | .bool true => ['t', 'r', 'u', 'e']
  | .bool false => ['f', 'a', 'l', 's', 'e']
  | .number literal => literal
  | .string s => stringText s
  | .array [] => ['[', ']']
  | .array (x :: xs) => '[' :: (text x ++ itemsText xs)
  | .object [] => ['\x7b', '\x7d']
  | .object ((name, x) :: fields) =>
    '\x7b' :: (stringText name ++ ':' :: (text x ++ fieldsText fields))

/-- The text of the values that are left of an array, and its end. -/
def itemsText : List Json → List Char
  | [] => [']']
  | x :: xs => ',' :: (text x ++ itemsText xs)

/-- The text of the fields that are left of an object, and its end. -/
def fieldsText : List (Option String × Json) → List Char
  | [] => ['\x7d']
  | (name, x) :: fields => ',' :: (stringText name ++ ':' :: (text x ++ fieldsText fields))

end

/-- The text of a value. -/
def write (value : Json) : String :=
  String.ofList value.text

end Json

end Telescope
