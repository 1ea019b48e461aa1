import Mathlib.Data.List.Basic
import Telescope.Proofs.ScriptLines

/-!
# Macros that are put together

Two texts with a line feed between them are read as the one and then the other, and an error in the
second counts the lines of the first as well. The lines of a text do not tell this: a text that ends
with a line feed has as many lines as without it, yet a text put behind it starts one line later. The
pieces between the line feeds (`List.splitOn`) do.

* `commandsFrom_lines`: reading lines or pieces comes to the same, for an empty piece at the end holds
  no command, and a carriage return at the end of a piece is a blank.
* `commandsFrom_append` and `commandsFrom_add`: lines after lines, and lines with higher numbers.
* `commandsFrom_eq_error_iff`: the error is that of the first line that is refused.

The number of a line is all that a macro tells of where a command stands. It is in the error and
nowhere else, so macros can be moved to other lines without a change to what they say.
-/

namespace Telescope

namespace Text

/-- A blank at the end of a text is trimmed. -/
theorem trim_concat {c : Char} (hc : isBlank c = true) (text : List Char) :
    trim (text ++ [c]) = trim text := by
  unfold trim trimStart
  rw [List.dropWhile_append]
  split
  · next hblank =>
    rw [List.isEmpty_iff.1 hblank, List.dropWhile_cons_of_pos hc, List.dropWhile_nil]
  · rw [List.reverse_append, List.reverse_singleton, List.singleton_append,
      List.dropWhile_cons_of_pos hc]

/-- The carriage return before a line feed is trimmed anyway. -/
theorem trim_endedLine (line : List Char) : trim (endedLine line) = trim line.reverse := by
  unfold endedLine
  split
  · rw [List.reverse_cons, trim_concat (by decide)]
  · rfl

/-- There is one piece more than there are line feeds. -/
theorem length_splitOn_feed (text : List Char) :
    (text.splitOn '\n').length = text.count '\n' + 1 := by
  induction text with
  | nil => rfl
  | cons c text ih =>
    rw [List.splitOn_cons_eq_if_modifyHead, List.count_cons]
    split
    · rw [List.length_cons, ih]
    · rw [List.length_modifyHead, ih, Nat.add_zero]

/-- With nothing put in front of the first piece the pieces are the same. -/
theorem modifyHead_nil_append (pieces : List (List Char)) :
    pieces.modifyHead (([] : List Char).reverse ++ ·) = pieces := by
  cases pieces <;> rfl

/-- A line feed between two texts keeps their pieces apart. -/
theorem splitOn_append_feed (a b : List Char) :
    (a ++ '\n' :: b).splitOn '\n' = a.splitOn '\n' ++ b.splitOn '\n' := by
  simp only [List.splitOn_eq_splitOnP]
  exact List.splitOnP_append_cons a b (beq_self_eq_true '\n')

/-- Lines with a line feed behind each are the pieces, and an empty piece comes after them. -/
theorem splitOn_flatMap_feed {ls : List (List Char)} (h : ∀ l ∈ ls, '\n' ∉ l) :
    (ls.flatMap fun l => l ++ ['\n']).splitOn '\n' = ls ++ [[]] := by
  induction ls with
  | nil => rfl
  | cons l ls ih =>
    obtain ⟨hl, hls⟩ := List.forall_mem_cons.1 h
    rw [List.flatMap_cons, List.append_assoc, List.singleton_append,
      List.splitOn_append_cons_self_of_not_mem hl, ih hls]
    rfl

end Text

namespace Script

/-! ## Lines and pieces

The reader takes the lines of a text, and the pieces are more regular: a text has always one more of
them than it has line feeds. This section goes from the one to the other. -/

/-- A line has the same command with its carriage return and without it. -/
theorem commandOf_endedLine (line : List Char) :
    commandOf (Text.endedLine line) = commandOf line.reverse := by
  unfold commandOf
  rw [Text.trim_endedLine]

/-- Lines and pieces read alike, with the start of the first line given. The induction is on the
text. -/
theorem commandsFrom_linesFrom (number : Nat) (line text : List Char) :
    commandsFrom number (Text.linesFrom line text) =
      commandsFrom number ((text.splitOn '\n').modifyHead (line.reverse ++ ·)) := by
  induction text generalizing number line with
  | nil =>
    have hpieces : (List.splitOn '\n' []).modifyHead (line.reverse ++ ·) = [line.reverse] := by
      simp
    rw [hpieces, Text.linesFrom]
    cases line with
    | nil => rfl
    | cons c line => rw [if_neg (by simp)]
  | cons c text ih =>
    rw [Text.linesFrom, List.splitOn_cons_eq_if_modifyHead]
    by_cases hc : c = '\n'
    · rw [if_pos hc, if_pos (beq_iff_eq.2 hc), List.modifyHead_cons, List.append_nil,
        commandsFrom_cons, commandsFrom_cons, commandOf_endedLine, ih, Text.modifyHead_nil_append]
    · rw [if_neg hc, if_neg (by simpa using hc), ih, List.modifyHead_modifyHead]
      congr 2
      funext piece
      simp

/-- A macro can be read piece by piece. -/
theorem commandsFrom_lines (number : Nat) (text : List Char) :
    commandsFrom number (Text.lines text) = commandsFrom number (text.splitOn '\n') := by
  rw [Text.lines, commandsFrom_linesFrom, Text.modifyHead_nil_append]

/-! ## Lines after lines

Reading stops at the first line that is refused. So what stands behind it counts only if all before
it was read. -/

/-- Lines that come after others are read if these are, and their numbers go on. The induction is on
the lines in front. -/
theorem commandsFrom_append (number : Nat) (xs ys : List (List Char)) :
    commandsFrom number (xs ++ ys) =
      (commandsFrom number xs).bind fun before =>
        (commandsFrom (number + xs.length) ys).map (before ++ ·) := by
  induction xs generalizing number with
  | nil =>
    rw [List.nil_append, List.length_nil, Nat.add_zero]
    rw [commandsFrom]
    cases commandsFrom number ys <;> rfl
  | cons line xs ih =>
    rw [List.cons_append, commandsFrom_cons, commandsFrom_cons, ih, List.length_cons,
      Nat.add_right_comm, Nat.add_assoc number xs.length 1]
    cases commandOf line with
    | error cause => rfl
    | ok c =>
      cases commandsFrom (number + 1) xs with
      | error e => rfl
      | ok before =>
        cases commandsFrom (number + (xs.length + 1)) ys with
        | error e => rfl
        | ok after => simp [Except.bind, Except.map]

/-- Lines with a line feed behind each are read one by one, also where a line ends with a carriage
return. -/
theorem commandsFrom_flatMap_feed {number : Nat} {ls : List (List Char)} (h : ∀ l ∈ ls, '\n' ∉ l) :
    commandsFrom number (Text.lines (ls.flatMap fun l => l ++ ['\n'])) = commandsFrom number ls := by
  have hend : commandsFrom (number + ls.length) [[]] = .ok [] := rfl
  rw [commandsFrom_lines, Text.splitOn_flatMap_feed h, commandsFrom_append, hend]
  cases commandsFrom number ls with
  | error e => rfl
  | ok commands => simp [Except.bind, Except.map]

/-- Higher numbers only show in the error. -/
theorem commandsFrom_add (number k : Nat) (ls : List (List Char)) :
    commandsFrom (number + k) ls =
      (commandsFrom number ls).mapError fun e => { e with line := e.line + k } := by
  induction ls generalizing number with
  | nil => rfl
  | cons line ls ih =>
    rw [commandsFrom_cons, commandsFrom_cons, Nat.add_right_comm, ih]
    cases commandOf line with
    | error cause => rfl
    | ok c => cases commandsFrom (number + 1) ls <;> rfl

/-! ## The first line that is refused

The reader goes on until a line is refused, and says why. A line that is skipped or is a command is
not refused, whatever the reader would have said about its number. -/

/-- The line is neither blank nor a comment, and no command either. -/
def Refused (line : List Char) (cause : CommandError) : Prop :=
  isSkipped (Text.trim line) = false ∧ Command.ofLine (Text.trim line) = .error cause

/-- A line has an error exactly if it is refused, for the same cause. -/
theorem commandOf_eq_error_iff {line : List Char} {cause : CommandError} :
    commandOf line = .error cause ↔ Refused line cause := by
  unfold commandOf Refused
  dsimp only
  cases isSkipped (Text.trim line) with
  | true => simp
  | false => cases Command.ofLine (Text.trim line) <;> simp [Except.map]

/-- An error is that of the first line, or this line is not refused and a later one has the error. -/
theorem commandsFrom_cons_eq_error_iff {line : List Char} {ls : List (List Char)} {number : Nat}
    {e : Error} :
    commandsFrom number (line :: ls) = .error e ↔
      e.line = number ∧ Refused line e.cause ∨
        (∀ cause, ¬ Refused line cause) ∧ commandsFrom (number + 1) ls = .error e := by
  rw [commandsFrom_cons]
  simp only [← commandOf_eq_error_iff]
  cases commandOf line with
  | error cause =>
    obtain ⟨bad, why⟩ := e
    simp [eq_comm]
  | ok c => cases commandsFrom (number + 1) ls <;> simp [Except.map]

/-- The error is that of the first line that is refused, and has the number of this line. The
induction is on the lines, with the number that the first of them has. -/
theorem commandsFrom_eq_error_iff {ls : List (List Char)} {number : Nat} {e : Error} :
    commandsFrom number ls = .error e ↔
      ∃ before line after, ls = before ++ line :: after ∧ e.line = number + before.length ∧
        Refused line e.cause ∧ ∀ l ∈ before, ∀ cause, ¬ Refused l cause := by
  induction ls generalizing number with
  | nil => simp [commandsFrom]
  | cons line ls ih => rw [commandsFrom_cons_eq_error_iff, ih, Text.exists_before_cons_iff]

/-- The lines that hold a command, trimmed. -/
def commandLines (ls : List (List Char)) : List (List Char) :=
  (ls.map Text.trim).filter fun line => !isSkipped line

/-- A macro that is read has the commands of its lines, in order. The lines that are skipped have
been taken out before. -/
theorem commandsFrom_eq_ok_iff_ofLine {ls : List (List Char)} {number : Nat} {commands : List Command} :
    commandsFrom number ls = .ok commands ↔
      (commandLines ls).map Command.ofLine = commands.map .ok := by
  induction ls generalizing number commands with
  | nil =>
    constructor
    · intro h
      obtain rfl := Except.ok.inj h
      rfl
    · intro h
      rw [List.map_eq_nil_iff.1 h.symm]
      rfl
  | cons line ls ih =>
    by_cases hskipped : isSkipped (Text.trim line) = true
    · have hlines : commandLines (line :: ls) = commandLines ls := by
        simp [commandLines, hskipped]
      rw [commandsFrom_skipped ls hskipped, hlines]
      exact ih
    · have hlines : commandLines (line :: ls) = Text.trim line :: commandLines ls := by
        simp [commandLines, hskipped]
      rw [hlines, List.map_cons, commandsFrom, if_neg hskipped]
      -- a refused line gives an error, which is in no list of commands
      cases Command.ofLine (Text.trim line) with
      | error cause => cases commands <;> simp
      | ok c =>
        cases commands with
        | nil => cases commandsFrom (number + 1) ls <;> simp [Except.map]
        | cons first rest =>
          have hrest := @ih (number + 1) rest
          cases hread : commandsFrom (number + 1) ls with
          | error e =>
            rw [hread] at hrest
            simp [Except.map, ← hrest]
          | ok read =>
            rw [hread] at hrest
            simp [Except.map, ← hrest]

/-- **Macros are read line by line, and so are macros that are put together.** For any texts `a` and
`b`:

* the text `a`, a line feed and `b` is read as `a` and then `b`. An error in `a` is its error; an error
  in `b` is its error further on by the line feeds in `a` and one; without errors the commands follow
  each other;
* the error of any text is that of the first of its lines that is neither blank nor a comment and is
  no command, and has the number of this line, where all lines are counted from one;
* a text is read without an error as the commands of all its lines that hold one, in order. -/
theorem read_append_feed (a b : String) :
    read (a ++ "\n" ++ b) =
      (match read a, read b with
      | .error e, _ => .error e
      | .ok _, .error e => .error ⟨e.line + (a.toList.count '\n' + 1), e.cause⟩
      | .ok before, .ok after => .ok (before ++ after)) ∧
    (∀ (text : String) (e : Error), read text = .error e ↔
      ∃ before line after, Text.lines text.toList = before ++ line :: after ∧
        e.line = before.length + 1 ∧ Refused line e.cause ∧
        ∀ l ∈ before, ∀ cause, ¬ Refused l cause) ∧
    ∀ (text : String) (commands : List Command), read text = .ok commands ↔
      (commandLines (Text.lines text.toList)).map Command.ofLine = commands.map .ok := by
  refine ⟨?_, ?_, fun _ _ => commandsFrom_eq_ok_iff_ofLine⟩
  · have hpieces : (a ++ "\n" ++ b).toList.splitOn '\n' =
        a.toList.splitOn '\n' ++ b.toList.splitOn '\n' := by
      rw [String.toList_append, String.toList_append, List.append_assoc]
      exact Text.splitOn_append_feed a.toList b.toList
    have hlater : commandsFrom (1 + (a.toList.splitOn '\n').length) (b.toList.splitOn '\n') =
        (read b).mapError fun e => ⟨e.line + (a.toList.count '\n' + 1), e.cause⟩ := by
      rw [commandsFrom_add, Text.length_splitOn_feed, read, commandsFrom_lines]
    rw [read, commandsFrom_lines, hpieces, commandsFrom_append, hlater, ← commandsFrom_lines, ← read]
    cases read a with
    | error e => rfl
    | ok before => cases read b <;> rfl
  · intro text e
    rw [read, commandsFrom_eq_error_iff]
    simp only [Nat.add_comm 1]

end Script

end Telescope
