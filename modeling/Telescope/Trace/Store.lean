import Telescope.Files.Tree
import Telescope.Text.Blank
import Telescope.Text.Lines
import Telescope.Trace.Lines

/-!
# Trace files

A trace file has one event a line; blank lines hold none. `Trace.write` and `Trace.read` are the two
ways between traces and files. The first line that is no event ends the reading; its number counts
all lines of the file from one.
-/

namespace Telescope

/-- Why a trace cannot be read or written. -/
inductive TraceError
  /-- the file cannot be read -/
  | unreadable (path : String) (cause : FileError)
  /-- the line with this number is no event -/
  | malformed (path : String) (line : Nat)
  /-- the file cannot be written -/
  | unwritable (path : String) (cause : FileError)
deriving DecidableEq, Repr

/-- The message of an error, without the cause. -/
def TraceError.message : TraceError → String
  | .unreadable path _ => "reading trace " ++ path
  | .malformed path line => path ++ ":" ++ toString line ++ ": malformed event"
  | .unwritable path _ => "creating trace " ++ path

namespace Trace

/-- The events of some lines, the first of which has the given number. What makes a line an event is
up to the reader; the error is the number of the first line that is none. -/
def eventsOfLines (ofLine? : List Char → Option TraceEvent) (number : Nat) :
    List (List Char) → Except Nat Trace
  | [] => .ok []
  | line :: rest =>
    if (Text.trim line).isEmpty then eventsOfLines ofLine? (number + 1) rest
    else
      match ofLine? line with
      | none => .error number
      | some e => (eventsOfLines ofLine? (number + 1) rest).map (e :: ·)

/-- The events of a text. -/
def ofText (text : String) : Except Nat Trace :=
  eventsOfLines TraceEvent.ofLine? 1 (Text.lines text.toList)

/-- The text of some events. -/
def text (trace : Trace) : String :=
  String.ofList (trace.flatMap fun e => e.toJson.text ++ ['\n'])

/-- Reads a trace from a file. -/
def read (files : Files) (path : String) : Except TraceError Trace :=
  match files.read path with
  | .error cause => .error (.unreadable path cause)
  | .ok text =>
    match ofText text with
    | .error line => .error (.malformed path line)
    | .ok trace => .ok trace

/-- Writes a trace to a file. -/
def write (files : Files) (path : String) (trace : Trace) : Except TraceError Files :=
  match files.write path trace.text with
  | .error cause => .error (.unwritable path cause)
  | .ok files => .ok files

/-- A blank line is counted and has no event. -/
theorem eventsOfLines_blank {line : List Char} (h : (Text.trim line).isEmpty = true)
    (ofLine? : List Char → Option TraceEvent) (number : Nat) (rest : List (List Char)) :
    eventsOfLines ofLine? number (line :: rest) = eventsOfLines ofLine? (number + 1) rest := by
  simp [eventsOfLines, h]

end Trace

end Telescope
