/-!
# Lines

A text is split after every line feed. The line feed, and a carriage return right before it, do not
belong to the line; what follows the last line feed is a line only if it is not empty.
-/

namespace Telescope.Text

/-- A line that was ended by a line feed, without the carriage return before it; the characters come
last first. -/
def endedLine : List Char → List Char
  | '\r' :: line => line.reverse
  | line => line.reverse

/-- The lines of a text, given the start of the first one, last character first. -/
def linesFrom (line : List Char) : List Char → List (List Char)
  | [] => if line.isEmpty then [] else [line.reverse]
  | c :: rest => if c = '\n' then endedLine line :: linesFrom [] rest else linesFrom (c :: line) rest

/-- The lines of a text. -/
def lines (text : List Char) : List (List Char) :=
  linesFrom [] text

/-- An empty text has no lines. -/
@[simp] theorem lines_nil : lines [] = [] := rfl

end Telescope.Text
