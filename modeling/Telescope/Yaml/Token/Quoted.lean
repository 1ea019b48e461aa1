import Telescope.Yaml.Token.Folding

/-!
# Scalars between quotes

Between single quotes a quote is written twice and everything else stands for itself. Between double
quotes a backslash begins an escape, and one at the end of a line takes the line end away.
-/

namespace Telescope.Yaml

namespace Quoted

/-- The value of a hexadecimal digit. -/
def hexDigit? (c : Char) : Option Nat :=
  if '0' ≤ c ∧ c ≤ '9' then some (c.toNat - '0'.toNat)
  else if 'a' ≤ c ∧ c ≤ 'f' then some (c.toNat - 'a'.toNat + 10)
  else if 'A' ≤ c ∧ c ≤ 'F' then some (c.toNat - 'A'.toNat + 10)
  else none

/-- The value of the first `count` characters, all of which are hexadecimal digits. -/
def hex? (value : Nat) : Nat → List Spot → Option Nat
  | 0, _ => some value
  | _ + 1, [] => none
  | count + 1, s :: rest =>
    match hexDigit? s.char with
    | some d => hex? (value * 16 + d) count rest
    | none => none

/-- The character that an escape of one letter stands for. -/
def named? : Char → Option Char
  | '0' => some '\x00'
  | 'a' => some '\x07'
  | 'b' => some '\x08'
  | 't' | '\t' => some '\t'
  | 'n' => some '\n'
  | 'v' => some '\x0b'
  | 'f' => some '\x0c'
  | 'r' => some '\r'
  | 'e' => some '\x1b'
  | ' ' => some ' '
  | '"' => some '"'
  | '/' => some '/'
  | '\\' => some '\\'
  | 'N' => some '\u0085'
  | '_' => some '\u00a0'
  | 'L' => some '\u2028'
  | 'P' => some '\u2029'
  | _ => none

/-- The number of digits behind a letter that begins a code point. -/
def digitCount? : Char → Option Nat
  | 'x' => some 2
  | 'u' => some 4
  | 'U' => some 8
  | _ => none

/-- The character that an escape stands for, and the number of characters after its letter. -/
def escape? (letter : Char) (rest : List Spot) : Option (Char × Nat) :=
  match digitCount? letter with
  | none => (named? letter).map (·, 0)
  | some count =>
    match hex? 0 count rest with
    | none => none
    | some n => if h : n.isValidChar then some (Char.ofNatAux n h, count) else none

/-- Reads on in a scalar up to the closing quote. `afterGap` says whether blanks came right before. -/
def readFrom (double : Bool) (f : Folding) (afterGap : Bool) (text : List Spot) :
    Option (List Char × List Spot) :=
  match text with
  | [] => none
  | s :: rest =>
    if isBlank s.char then readFrom double (f.blank s.char) true rest
    else if isBreak s.char then readFrom double (f.lineEnd s.char) true rest
    else if afterGap && Spot.atDocumentMark (s :: rest) then none
    else if double then
      if s.char = '"' then some (f.all, rest)
      else if s.char = '\\' then
        match rest with
        | [] => none
        | e :: rest =>
          if isBreak e.char then readFrom double f.escapedEnd true rest
          else
            match escape? e.char rest with
            | none => none
            | some (c, count) => readFrom double (f.put c) false (rest.drop count)
      else readFrom double (f.put s.char) false rest
    else if s.char = '\'' then
      match rest with
      | [] => some (f.all, [])
      | e :: rest =>
        if e.char = '\'' then readFrom double (f.put '\'') false rest else some (f.all, e :: rest)
    else readFrom double (f.put s.char) false rest
termination_by text.length
decreasing_by all_goals (simp only [List.length_cons, List.length_drop]; omega)

end Quoted

/-- Reads a scalar after its opening quote, and what follows the closing one. -/
def quoted? (double : Bool) (rest : List Spot) : Option (List Char × List Spot) :=
  Quoted.readFrom double Folding.empty false rest

end Telescope.Yaml
