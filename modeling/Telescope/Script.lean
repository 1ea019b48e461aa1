import Telescope.Command
import Telescope.Text.Lines

/-!
# Macros

A macro is a text with one command a line. Blank lines and lines that start with `#` hold none. The
first line that cannot be read ends the reading; its number counts all lines of the text from one.
-/

namespace Telescope.Script

/-- Why a macro is refused: the first bad line and what is wrong with it. -/
structure Error where
  /-- the number of the line -/
  line : Nat
  /-- what is wrong -/
  cause : CommandError

/-- The message of an error. -/
def Error.message (e : Error) : String :=
  "line " ++ toString e.line ++ ": " ++ e.cause.message

/-- Whether a trimmed line holds no command. -/
def isSkipped (line : List Char) : Bool :=
  line.isEmpty || line.head? == some '#'

/-- The commands of some lines, the first of which has the given number. -/
def commandsFrom (number : Nat) : List (List Char) → Except Error (List Command)
  | [] => .ok []
  | raw :: rest =>
    let line := Text.trim raw
    if isSkipped line then commandsFrom (number + 1) rest
    else
      match Command.ofLine line with
      | .error cause => .error ⟨number, cause⟩
      | .ok command => (commandsFrom (number + 1) rest).map (command :: ·)

/-- The commands of a macro. -/
def read (text : String) : Except Error (List Command) :=
  commandsFrom 1 (Text.lines text.toList)

/-- A line that is skipped is counted and has no command. -/
theorem commandsFrom_skipped {number : Nat} {raw : List Char} (rest : List (List Char))
    (h : isSkipped (Text.trim raw) = true) :
    commandsFrom number (raw :: rest) = commandsFrom (number + 1) rest := by
  simp [commandsFrom, h]

end Telescope.Script
