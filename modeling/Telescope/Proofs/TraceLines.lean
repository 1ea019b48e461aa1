import Telescope.Proofs.Blanks
import Telescope.Trace.Store

/-!
# The lines of a trace

A trace is read line by line, and blank lines are passed over. Whatever makes a line an event, the whole
is read or nothing:

* `Trace.eventsOfLines_eq_ok_iff`: the events are those of the filled lines, one by one, if all of these
  are events;
* `Trace.eventsOfLines_eq_error_iff`: otherwise the error is the first line that is filled and no event
  (`Trace.Refused`), and its number counts the blank lines before it;
* `Trace.eventsOfLines_insert`: blank lines that are put between others show in this number only.

`Trace.eventsOf_report` says the same of texts, where the end of the last line may be left out
(`Trace.eventsOf_append_end`).

Nothing is asked of the reader of lines, so the laws hold whatever a line of JSON is. A line that is
read as an event and has more behind it is a matter for the reader of JSON.
-/

namespace Telescope

namespace Trace

open Text (Filled Ended)

variable {parse : List Char → Option TraceEvent} {line : List Char} {ls : List (List Char)}
  {number : Nat}

/-! ## Lines

A blank line is passed over and counted. So the number of a line in an error is that in the file, as
an editor shows it. -/

/-- The line is not blank, and no event either. -/
def Refused (parse : List Char → Option TraceEvent) (line : List Char) : Prop :=
  Filled line ∧ parse line = none

/-- Blank lines are passed over. -/
theorem eventsOfLines_not_filled (h : ¬ Filled line) :
    eventsOfLines parse number (line :: ls) = eventsOfLines parse (number + 1) ls :=
  eventsOfLines_blank (List.isEmpty_iff.2 (Text.trim_eq_nil_iff.2 h)) parse number ls

/-- A line that is not blank has to be an event, or the reading ends there. -/
theorem eventsOfLines_filled (h : Filled line) :
    eventsOfLines parse number (line :: ls) =
      match parse line with
      | none => .error number
      | some e => (eventsOfLines parse (number + 1) ls).map (e :: ·) := by
  rw [eventsOfLines]
  exact if_neg fun hblank => Text.trim_eq_nil_iff.1 (List.isEmpty_iff.1 hblank) h

/-- The events of some lines are those of the filled ones. The induction is on the lines, with any
number for the first. -/
theorem eventsOfLines_eq_ok_iff {trace : Trace} :
    eventsOfLines parse number ls = .ok trace ↔ (ls.filter Filled).map parse = trace.map some := by
  induction ls generalizing number trace with
  | nil =>
    rw [eventsOfLines, Except.ok.injEq, List.filter_nil, List.map_nil, eq_comm, eq_comm (a := []),
      List.map_eq_nil_iff]
  | cons line ls ih =>
    by_cases hline : Filled line
    · rw [eventsOfLines_filled hline, List.filter_cons_of_pos (by simpa using hline), List.map_cons]
      cases hparse : parse line with
      | none => cases trace <;> simp
      | some e =>
        cases trace with
        | nil => cases eventsOfLines parse (number + 1) ls <;> simp [Except.map]
        | cons first trace =>
          rw [List.map_cons, List.cons.injEq, Option.some_inj, ← @ih (number + 1) trace]
          cases eventsOfLines parse (number + 1) ls <;> simp [Except.map]
    · rw [eventsOfLines_not_filled hline, ih, List.filter_cons_of_neg (by simpa using hline)]

/-- An error is that of the first line, or this line is not refused and a later one has the error. -/
theorem eventsOfLines_cons_eq_error_iff {bad : Nat} :
    eventsOfLines parse number (line :: ls) = .error bad ↔
      bad = number ∧ Refused parse line ∨
        ¬ Refused parse line ∧ eventsOfLines parse (number + 1) ls = .error bad := by
  by_cases hline : Filled line
  · rw [eventsOfLines_filled hline, Refused]
    cases parse line with
    | none => simp [hline, eq_comm]
    | some e => cases eventsOfLines parse (number + 1) ls <;> simp [Except.map]
  · rw [eventsOfLines_not_filled hline, Refused]
    simp [hline]

/-- The error is the number of the first line that is refused. -/
theorem eventsOfLines_eq_error_iff {bad : Nat} :
    eventsOfLines parse number ls = .error bad ↔
      ∃ before line after, ls = before ++ line :: after ∧ bad = number + before.length ∧
        Refused parse line ∧ ∀ l ∈ before, ¬ Refused parse l := by
  induction ls generalizing number with
  | nil => simp [eventsOfLines]
  | cons line ls ih => rw [eventsOfLines_cons_eq_error_iff, ih, Text.exists_before_cons_iff]

/-- So there are events just if no line is refused. -/
theorem exists_eventsOfLines_iff :
    (∃ trace, eventsOfLines parse number ls = .ok trace) ↔ ∀ line ∈ ls, ¬ Refused parse line := by
  constructor
  · rintro ⟨trace, hok⟩ line hline ⟨hfilled, hnone⟩
    have hmem : parse line ∈ trace.map some := by
      rw [← eventsOfLines_eq_ok_iff.1 hok]
      exact List.mem_map_of_mem (List.mem_filter.2 ⟨hline, decide_eq_true hfilled⟩)
    obtain ⟨e, -, he⟩ := List.mem_map.1 hmem
    exact nomatch he.trans hnone
  · intro h
    cases hread : eventsOfLines parse number ls with
    | ok trace => exact ⟨trace, rfl⟩
    | error bad =>
      obtain ⟨before, line, after, rfl, -, hrefused, -⟩ := eventsOfLines_eq_error_iff.1 hread
      exact absurd hrefused (h line (by simp))

/-! ## Lines between lines

The number of a line is the only trace that blank lines leave. So an error tells by its number
whether they are before it. -/

/-- Lines behind others are read if these are, and their numbers go on. -/
theorem eventsOfLines_append (number : Nat) (xs ys : List (List Char)) :
    eventsOfLines parse number (xs ++ ys) =
      (eventsOfLines parse number xs).bind fun before =>
        (eventsOfLines parse (number + xs.length) ys).map (before ++ ·) := by
  induction xs generalizing number with
  | nil =>
    rw [List.nil_append, List.length_nil, Nat.add_zero, eventsOfLines]
    cases eventsOfLines parse number ys <;> rfl
  | cons line xs ih =>
    rw [List.cons_append, List.length_cons, Nat.add_comm xs.length 1, ← Nat.add_assoc]
    by_cases hline : Filled line
    · rw [eventsOfLines_filled hline, eventsOfLines_filled hline, ih]
      cases parse line with
      | none => rfl
      | some e =>
        cases eventsOfLines parse (number + 1) xs with
        | error bad => rfl
        | ok before => cases eventsOfLines parse (number + 1 + xs.length) ys <;> rfl
    · rw [eventsOfLines_not_filled hline, eventsOfLines_not_filled hline, ih]

/-- Higher numbers only show in the error. -/
theorem eventsOfLines_add (number k : Nat) (ls : List (List Char)) :
    eventsOfLines parse (number + k) ls = (eventsOfLines parse number ls).mapError (· + k) := by
  induction ls generalizing number with
  | nil => rfl
  | cons line ls ih =>
    by_cases hline : Filled line
    · rw [eventsOfLines_filled hline, eventsOfLines_filled hline, Nat.add_right_comm, ih]
      cases parse line with
      | none => rfl
      | some e => cases eventsOfLines parse (number + 1) ls <;> rfl
    · rw [eventsOfLines_not_filled hline, eventsOfLines_not_filled hline, Nat.add_right_comm, ih]

/-- Blank lines have no events. -/
theorem eventsOfLines_of_blank {blanks : List (List Char)} (h : ∀ line ∈ blanks, ¬ Filled line) :
    eventsOfLines parse number blanks = .ok [] := by
  rw [eventsOfLines_eq_ok_iff, List.filter_eq_nil_iff.2 (by simpa using h)]
  rfl

/-- Nor do they add any at the end. -/
theorem eventsOfLines_append_blank {blanks : List (List Char)} (h : ∀ line ∈ blanks, ¬ Filled line)
    (number : Nat) (xs : List (List Char)) :
    eventsOfLines parse number (xs ++ blanks) = eventsOfLines parse number xs := by
  rw [eventsOfLines_append, eventsOfLines_of_blank h]
  cases eventsOfLines parse number xs with
  | error bad => rfl
  | ok before => exact congrArg Except.ok (List.append_nil before)

/-- **Blank lines that are put between others** change nothing but the number of an error behind
them. An error before them keeps its number, also if it is on the last line before. -/
theorem eventsOfLines_insert {blanks : List (List Char)} (h : ∀ line ∈ blanks, ¬ Filled line)
    (xs ys : List (List Char)) :
    eventsOfLines parse 1 (xs ++ blanks ++ ys) = (eventsOfLines parse 1 (xs ++ ys)).mapError
      fun bad => if bad ≤ xs.length then bad else bad + blanks.length := by
  rw [List.append_assoc, eventsOfLines_append, eventsOfLines_append 1 xs ys, eventsOfLines_append,
    eventsOfLines_of_blank h, eventsOfLines_add]
  cases hxs : eventsOfLines parse 1 xs with
  | error bad =>
    obtain ⟨before, line, after, rfl, rfl, -⟩ := eventsOfLines_eq_error_iff.1 hxs
    have hle : 1 + before.length ≤ (before ++ line :: after).length := by
      rw [List.length_append, List.length_cons]
      omega
    exact congrArg Except.error (if_pos hle).symm
  | ok before =>
    cases hys : eventsOfLines parse (1 + xs.length) ys with
    | error bad =>
      obtain ⟨before, line, after, -, rfl, -⟩ := eventsOfLines_eq_error_iff.1 hys
      have hlt : ¬ 1 + xs.length + before.length ≤ xs.length := by omega
      exact congrArg Except.error (if_neg hlt).symm
    | ok after => rfl

/-! ## Texts

What is put into a text is put between lines only if the text before it has ended its last line. The
end of the text is special: a last line counts as one, ended or not. -/

/-- The events of a text, with any reader of lines. -/
def eventsOf (parse : List Char → Option TraceEvent) (text : String) : Except Nat Trace :=
  eventsOfLines parse 1 (Text.lines text.toList)

/-- The reader of traces is that of lines of JSON. -/
theorem ofText_eq : ofText = eventsOf TraceEvent.ofLine? := rfl

/-- The lines of a blank text are blank. -/
theorem not_filled_of_mem_lines {blank : String} (h : ¬ Filled blank.toList) :
    ∀ line ∈ Text.lines blank.toList, ¬ Filled line := by
  rintro line hline ⟨c, hc, hvisible⟩
  exact h ⟨c, Text.mem_of_mem_lines hline hc, hvisible⟩

/-- Blank text that is put between lines changes nothing but the number of an error behind it. -/
theorem eventsOf_insert {a blank b : String} (ha : Ended a.toList)
    (hend : Ended blank.toList ∨ b = "") (hblank : ¬ Filled blank.toList) :
    eventsOf parse (a ++ blank ++ b) = (eventsOf parse (a ++ b)).mapError fun bad =>
      if bad ≤ (Text.lines a.toList).length then bad
      else bad + (Text.lines blank.toList).length := by
  have hrest : Text.lines (blank ++ b).toList = Text.lines blank.toList ++ Text.lines b.toList := by
    obtain hend | rfl := hend
    · rw [String.toList_append, Text.lines_append hend]
    · rw [String.append_empty, String.toList_empty, Text.lines_nil, List.append_nil]
  unfold eventsOf
  rw [String.append_assoc, String.toList_append, Text.lines_append ha, hrest, ← List.append_assoc,
    eventsOfLines_insert (not_filled_of_mem_lines hblank), String.toList_append,
    Text.lines_append ha]

/-- The end of a line, put behind a text, leaves the last line as it is. A carriage return that the line
has for itself must not be taken for a part of the end. -/
def IsLineEnd (text ending : String) : Prop :=
  ending = "\r\n" ∨ ending = "\n" ∧ text.toList.getLast? ≠ some '\r'

/-- Whether the last line is ended makes no difference. An empty last line is no line without its
end and a blank one with it. -/
theorem eventsOf_append_end {text ending : String} (h : IsLineEnd text ending) :
    eventsOf parse (text ++ ending) = eventsOf parse text := by
  obtain ⟨start, line, htext, hstart, hline⟩ := Text.exists_ended_append text.toList
  -- the last line and its end are one line, also if the end is two characters
  have hended : Text.lines (line ++ ending.toList) = [line] := by
    obtain rfl | ⟨rfl, hlast⟩ := h
    · have hreturn : '\n' ∉ line ++ ['\r'] := by simpa using hline
      have hends := Text.lines_concat_feed hreturn
      rw [List.reverse_append, List.append_assoc] at hends
      rw [show "\r\n".toList = ['\r'] ++ ['\n'] from rfl, hends]
      exact congrArg (fun l => [l]) (List.reverse_reverse line)
    · have hreturn : line.getLast? ≠ some '\r' := by
        intro heq
        rw [htext, List.getLast?_append, heq] at hlast
        exact hlast rfl
      rw [show "\n".toList = ['\n'] from rfl, Text.lines_concat_feed hline,
        Text.endedLine_reverse hreturn]
  unfold eventsOf
  rw [String.toList_append, htext, List.append_assoc, Text.lines_append hstart,
    Text.lines_append hstart, hended, Text.lines_of_not_mem hline]
  split
  · next hnil =>
    have hblank : ∀ l ∈ [([] : List Char)], ¬ Filled l := by simp [Filled]
    rw [hnil, List.append_nil]
    exact eventsOfLines_append_blank hblank 1 _
  · rfl

/-- Nor does blank text behind it. -/
theorem eventsOf_append_blank {text ending blank : String} (h : IsLineEnd text ending)
    (hblank : ¬ Filled blank.toList) :
    eventsOf parse (text ++ ending ++ blank) = eventsOf parse text := by
  have hended : Ended (text ++ ending).toList := by
    obtain rfl | ⟨rfl, -⟩ := h <;> simp [Ended]
  rw [← eventsOf_append_end h, eventsOf, String.toList_append, Text.lines_append hended]
  exact eventsOfLines_append_blank (not_filled_of_mem_lines hblank) 1 _

/-- **A trace is read as a whole or not at all.** Whatever reads a line:

* there are events exactly if no line is refused, and these are the events of all filled lines in order;
* otherwise the error is the number of the first line that is refused, counted from one among all lines;
* blank lines change no event wherever they are put between lines, and an error behind them is that many
  lines further on. Behind the last line, where its end may have been left out, they change nothing at all;
* what is read from a file is its text with the reader of events, and the error names the file. -/
theorem eventsOf_report (parse : List Char → Option TraceEvent) :
    (∀ text : String,
      ((∃ trace, eventsOf parse text = .ok trace) ↔
        ∀ line ∈ Text.lines text.toList, ¬ Refused parse line) ∧
      (∀ trace, eventsOf parse text = .ok trace ↔
        ((Text.lines text.toList).filter Filled).map parse = trace.map some) ∧
      ∀ number, eventsOf parse text = .error number ↔
        ∃ before line after, Text.lines text.toList = before ++ line :: after ∧
          number = before.length + 1 ∧ Refused parse line ∧ ∀ l ∈ before, ¬ Refused parse l) ∧
    (∀ a blank b : String, Ended a.toList → (Ended blank.toList ∨ b = "") → ¬ Filled blank.toList →
      eventsOf parse (a ++ blank ++ b) = (eventsOf parse (a ++ b)).mapError fun number =>
        if number ≤ (Text.lines a.toList).length then number
        else number + (Text.lines blank.toList).length) ∧
    (∀ text ending blank : String, IsLineEnd text ending → ¬ Filled blank.toList →
      eventsOf parse (text ++ ending ++ blank) = eventsOf parse text) ∧
    ∀ (files : Files) (path text : String), files.read path = .ok text →
      read files path = (eventsOf TraceEvent.ofLine? text).mapError (.malformed path) := by
  refine ⟨fun text => ⟨exists_eventsOfLines_iff, fun trace => eventsOfLines_eq_ok_iff, ?_⟩,
    fun a blank b => eventsOf_insert, fun text ending blank => eventsOf_append_blank, ?_⟩
  · intro number
    rw [eventsOf, eventsOfLines_eq_error_iff]
    simp only [Nat.add_comm 1]
  · intro files path text htext
    rw [read, htext, ← ofText_eq]
    dsimp only
    cases ofText text <;> rfl

/-- The third line is refused; an ended line of a wide space before it is counted. -/
example : eventsOf (fun line => if line = ['a'] then some ⟨0, []⟩ else none) "a\r\n\u3000\nb" =
    .error 3 := by
  rfl

end Trace

end Telescope
