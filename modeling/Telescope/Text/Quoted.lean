import Telescope.Text.Visible

/-!
# Quoted text

Messages show a text between double quotes. Inside, a quote and a backslash carry a backslash, a few
control characters have names, and every other character that does not show on its own stands as its
code point, `\u{1b}`.
-/

namespace Telescope.Text

/-- The digits of a code point, hexadecimal and in lower case. -/
def codeDigits (c : Char) : List Char :=
  Nat.toDigits 16 c.toNat

/-- One character between quotes. -/
def quotedChar (c : Char) : List Char :=
  match c with
  | '"' => ['\\', '"']
  | '\\' => ['\\', '\\']
  | '\t' => ['\\', 't']
  | '\r' => ['\\', 'r']
  | '\n' => ['\\', 'n']
  | '\x00' => ['\\', '0']
  | _ => if isVisible c then [c] else ['\\', 'u', '\x7b'] ++ codeDigits c ++ ['\x7d']

/-- A text between quotes. -/
def quoted (text : List Char) : List Char :=
  '"' :: (text.flatMap quotedChar ++ ['"'])

/-- A text between quotes. -/
def quote (text : String) : String :=
  String.ofList (quoted text.toList)

end Telescope.Text
