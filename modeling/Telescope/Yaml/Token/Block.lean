import Telescope.Yaml.Spot

/-!
# Block scalars

A block scalar is a run of indented lines. Its header may give the indentation and say what becomes
of the line ends at its end; without a number the first line that is not empty gives the indentation.
A literal block keeps its line ends. In a folded one a line end between two lines that begin with a
word becomes a blank.
-/

namespace Telescope.Yaml

namespace Block

/-- What becomes of the line ends at the end. -/
inductive Chomping
  /-- one stays -/
  | clip
  /-- none stays -/
  | strip
  /-- all stay -/
  | keep
deriving DecidableEq, Repr

/-- What the header says. -/
structure Header where
  /-- what becomes of the last line ends -/
  chomping : Chomping
  /-- the indentation against the block around, if it is given -/
  increment : Option Nat

/-- The sign of a header, if there is one. -/
def sign? : List Spot → Option (Chomping × List Spot)
  | [] => none
  | s :: rest =>
    if s.char = '+' then some (.keep, rest)
    else if s.char = '-' then some (.strip, rest)
    else none

/-- The number of a header, if there is one; it must not be zero. -/
def increment? (rest : List Spot) : Option (Option Nat × List Spot) :=
  match rest with
  | [] => some (none, [])
  | s :: tail =>
    if s.char = '0' then none
    else if s.char.isDigit then some (some (s.char.toNat - '0'.toNat), tail)
    else some (none, rest)

/-- The header of a block: a sign and a number in either order, both optional. -/
def header? (rest : List Spot) : Option (Header × List Spot) :=
  match sign? rest with
  | some (chomping, rest) => do
    let (increment, rest) ← increment? rest
    return (⟨chomping, increment⟩, rest)
  | none => do
    let (increment, rest) ← increment? rest
    if increment.isNone then return (⟨.clip, none⟩, rest)
    match sign? rest with
    | some (chomping, rest) => return (⟨chomping, increment⟩, rest)
    | none => return (⟨.clip, increment⟩, rest)

/-- Whether a place lies before the given column; every place does if none is given. -/
def isBefore (indent : Option Nat) (p : Place) : Bool :=
  indent.all fun n => decide (p.column < n)

/-- The text without the indentation of a line: all blanks, or those before the given column. -/
def unindent (indent : Option Nat) (rest : List Spot) : List Spot :=
  rest.dropWhile fun s => s.char == ' ' && isBefore indent s.place

/-- What is left of a text is no longer than it was, so reading it ends. -/
theorem length_unindent_le (indent : Option Nat) (rest : List Spot) :
    (unindent indent rest).length ≤ rest.length :=
  (List.dropWhile_sublist _).length_le

/-- Whether a tab stands where the indentation goes on. -/
def tabInIndent (indent : Option Nat) (rest : List Spot) : Bool :=
  match rest with
  | [] => false
  | s :: _ => s.char == '\t' && isBefore indent s.place

/-- What is found between two lines that are not empty. -/
structure Gap where
  /-- the line ends, last first -/
  breaks : List Char
  /-- the greatest indentation of the lines, the last one included -/
  width : Nat
  /-- what follows -/
  rest : List Spot

/-- Passes over empty lines and the indentation of the next one. -/
def gap? (indent : Option Nat) (breaks : List Char) (width : Nat) (text : List Spot) : Option Gap :=
  if tabInIndent indent (unindent indent text) then none
  else
    match _h : unindent indent text with
    | [] => some ⟨breaks, width, []⟩
    | s :: rest =>
      let width := max width s.place.column
      if isBreak s.char then gap? indent (s.char :: breaks) width rest
      else some ⟨breaks, width, s :: rest⟩
termination_by text.length
decreasing_by
  have := length_unindent_le indent text
  rw [_h, List.length_cons] at this
  omega

/-- A block that is being read. -/
structure Body where
  /-- its text so far, last character first -/
  text : List Char
  /-- the line end of its last line -/
  lastBreak : Option Char
  /-- the line ends of the empty lines after it, last first -/
  moreBreaks : List Char
  /-- whether the last line began with a blank -/
  indented : Bool

/-- The line end before the next line, which begins with a blank or not. -/
def Body.lineEnd (b : Body) (literal indented : Bool) : List Char :=
  if !literal && b.lastBreak == some '\n' && !b.indented && !indented then
    if b.moreBreaks.isEmpty then [' '] else []
  else b.lastBreak.toList

/-- Reads the lines of a block: as many as begin at its indentation. -/
def lines? (literal : Bool) (indent : Nat) : Nat → Body → List Spot → Option (Body × List Spot)
  | 0, b, rest => some (b, rest)
  | _ + 1, b, [] => some (b, [])
  | count + 1, b, s :: rest =>
    if s.place.column ≠ indent then some (b, s :: rest)
    else
      let indented := isBlank s.char
      let line := (s :: rest).takeWhile fun s => !isBreak s.char
      let after := (s :: rest).dropWhile fun s => !isBreak s.char
      match gap? (some indent) [] 0 (after.drop 1) with
      | none => none
      | some gap =>
        let text := (Spot.chars line).reverse ++
          (b.moreBreaks ++ (b.lineEnd literal indented ++ b.text))
        lines? literal indent count
          ⟨text, after.head?.map Spot.char, gap.breaks, indented⟩ gap.rest

/-- The text of a block that has ended. -/
def Body.finish (b : Body) (chomping : Chomping) : List Char :=
  let text := match chomping with
    | .strip => b.text
    | .clip => b.lastBreak.toList ++ b.text
    | .keep => b.moreBreaks ++ (b.lastBreak.toList ++ b.text)
  text.reverse

end Block

open Block in
/-- Reads a block scalar after its mark; `outer` is the indentation of the block around it. -/
def block? (literal : Bool) (outer : Int) (rest : List Spot) : Option (List Char × List Spot) := do
  let (header, rest) ← header? rest
  let rest ← Spot.lineRest? rest
  let given := header.increment.map fun n => if outer < 0 then n else outer.toNat + n
  let gap ← gap? given [] 0 rest
  let indent := given.getD (max gap.width (max (outer + 1).toNat 1))
  let (body, rest) ← lines? literal indent gap.rest.length ⟨[], none, gap.breaks, false⟩ gap.rest
  return (body.finish header.chomping, rest)

end Telescope.Yaml
