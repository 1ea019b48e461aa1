/-!
# Places in a text

Indentation carries meaning in YAML, so every character is taken together with its place. `Spot.ofText?`
gives the characters of a text with their places; it refuses control characters, and makes one line
feed of every line end but the two Unicode separators.
-/

namespace Telescope.Yaml

/-- A place in a text. -/
structure Place where
  /-- the number of characters before it -/
  index : Nat
  /-- the number of lines before its own -/
  line : Nat
  /-- the number of characters before it in its line -/
  column : Nat
deriving DecidableEq, Repr

/-- The place after one character. -/
def Place.next (p : Place) : Place := ⟨p.index + 1, p.line, p.column + 1⟩

/-- The start of the line after a line end of so many characters. -/
def Place.nextLine (p : Place) (width : Nat) : Place := ⟨p.index + width, p.line + 1, 0⟩

/-- A character at its place. -/
structure Spot where
  /-- the character -/
  char : Char
  /-- its place -/
  place : Place
deriving DecidableEq, Repr

/-! ## Kinds of characters -/

/-- The characters that a text may hold. -/
def isAllowed (c : Char) : Bool :=
  let n := c.toNat
  n = 0x09 ∨ n = 0x0a ∨ n = 0x0d ∨ (0x20 ≤ n ∧ n ≤ 0x7e) ∨ n = 0x85 ∨ (0xa0 ≤ n ∧ n ≤ 0xd7ff)
    ∨ (0xe000 ≤ n ∧ n ≤ 0xfffd) ∨ 0x10000 ≤ n

/-- The characters that end a line. -/
def isBreak (c : Char) : Bool :=
  c = '\n' ∨ c = '\r' ∨ c = '\u0085' ∨ c = '\u2028' ∨ c = '\u2029'

/-- A line end as it counts in a scalar: the two Unicode separators stay, all others are one. -/
def breakText (c : Char) : Char :=
  if c = '\u2028' ∨ c = '\u2029' then c else '\n'

/-- The blanks within a line. -/
def isBlank (c : Char) : Bool := c = ' ' ∨ c = '\t'

/-- The letters, digits and marks of names. -/
def isName (c : Char) : Bool := c.isAlphanum ∨ c = '_' ∨ c = '-'

/-- The mark that may stand at the start of a text. -/
def byteOrderMark : Char := '\ufeff'

namespace Spot

/-- The characters with their places, from a place on, and the place at the end. -/
def spots (place : Place) : List Char → List Spot × Place
  | [] => ([], place)
  | '\r' :: '\n' :: rest =>
    let (ss, finish) := spots (place.nextLine 2) rest
    (⟨'\n', place⟩ :: ss, finish)
  | c :: rest =>
    if isBreak c then
      let (ss, finish) := spots (place.nextLine 1) rest
      (⟨breakText c, place⟩ :: ss, finish)
    else
      let (ss, finish) := spots place.next rest
      (⟨c, place⟩ :: ss, finish)

/-- The characters of a text with their places, and the place at its end. -/
def ofText? (text : List Char) : Option (List Spot × Place) :=
  if text.all isAllowed then some (spots ⟨0, 0, 0⟩ text) else none

/-- The characters of some spots. -/
def chars (ss : List Spot) : List Char := ss.map Spot.char

/-- Whether a blank, a line end or the end of the text comes next. -/
def atGap (rest : List Spot) : Bool :=
  match rest with
  | [] => true
  | s :: _ => isBlank s.char || isBreak s.char

/-- Whether the next character is the given one. -/
def startsWith (c : Char) (rest : List Spot) : Bool :=
  match rest with
  | [] => false
  | s :: _ => s.char == c

/-- Whether a line begins with three of the given character, and no more. -/
def isMark (c : Char) (rest : List Spot) : Bool :=
  match rest with
  | a :: b :: d :: rest => a.place.column == 0 && a.char == c && b.char == c && d.char == c && atGap rest
  | _ => false

/-- Whether a document begins or ends here. -/
def atDocumentMark (rest : List Spot) : Bool := isMark '-' rest || isMark '.' rest

/-- What follows the blanks, an optional comment and the line end; `none` if there is more in the
line. -/
def lineRest? (rest : List Spot) : Option (List Spot) :=
  let rest := rest.dropWhile fun s => isBlank s.char
  let rest := if startsWith '#' rest then rest.dropWhile fun s => !isBreak s.char else rest
  match rest with
  | [] => some []
  | s :: rest => if isBreak s.char then some rest else none

end Spot

end Telescope.Yaml
