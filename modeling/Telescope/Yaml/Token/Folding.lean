import Telescope.Yaml.Spot

/-!
# Folding of lines

A scalar that is plain or between quotes may go over several lines. Blanks around a line end vanish;
a single line end becomes a blank, and of several the first vanishes. What stands between two words
is known only at the second one, so a `Folding` keeps it until then.
-/

namespace Telescope.Yaml

/-- A scalar that is being read. -/
structure Folding where
  /-- its text so far, last character first -/
  text : List Char
  /-- the blanks since then, last first -/
  blanks : List Char
  /-- whether a line end came since then -/
  broken : Bool
  /-- the first line end, unless it was escaped -/
  firstBreak : Option Char
  /-- the line ends after it, last first -/
  moreBreaks : List Char

namespace Folding

/-- Nothing read yet. -/
def empty : Folding := ⟨[], [], false, none, []⟩

instance : Inhabited Folding := ⟨empty⟩

/-- A blank: it counts only as long as the line goes on. -/
def blank (f : Folding) (c : Char) : Folding :=
  if f.broken then f else { f with blanks := c :: f.blanks }

/-- A line end. -/
def lineEnd (f : Folding) (c : Char) : Folding :=
  if f.broken then { f with moreBreaks := c :: f.moreBreaks }
  else { f with blanks := [], broken := true, firstBreak := some c }

/-- What stands between two words, last character first. -/
def gap (f : Folding) : List Char :=
  if f.broken then
    match f.firstBreak with
    | some '\n' => if f.moreBreaks.isEmpty then [' '] else f.moreBreaks
    | some c => f.moreBreaks ++ [c]
    | none => f.moreBreaks
  else f.blanks

/-- The text with the gap put in. -/
def join (f : Folding) : Folding := ⟨f.gap ++ f.text, [], false, none, []⟩

/-- One more character of a word. -/
def put (f : Folding) (c : Char) : Folding :=
  let joined := f.join
  { joined with text := c :: joined.text }

/-- A line end that is escaped: it stands for nothing. -/
def escapedEnd (f : Folding) : Folding := { f.join with broken := true }

/-- The text up to the last word. -/
def words (f : Folding) : List Char := f.text.reverse

/-- The text with what stands after the last word. -/
def all (f : Folding) : List Char := f.join.text.reverse

end Folding

end Telescope.Yaml
