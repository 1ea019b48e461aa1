import Mathlib.Data.List.Basic
import Mathlib.Data.List.Induction
import Mathlib.Data.List.TakeWhile
import Telescope.Text.Blank
import Telescope.Text.Lines

/-!
# Words and lines of composed texts

What is written word by word and line by line is read so:

* `words_unwords`: words with single spaces between them are split into the same words;
* `isWord_of_mem_words`: whatever the text, its words have no blanks and are not empty;
* `words_trim` and `head?_trim`: blanks at the ends change no word, and the first character that is
  no blank comes first;
* `lines_flatMap_feed_of_not_mem`: lines with a line feed behind each are split into the same lines;
* `lines_append`: what comes behind a line feed is split on its own.

Both readers go through a text once and keep what they have of the word or the line so far, in
reverse. So every law is stated with any such beginning first, for the induction on the text, and
then without one.
-/

namespace Telescope.Text

/-! ## Texts without blanks

A word is what no reader divides. What is written without blanks can stand in a line of words, and
it has no line end in it either. -/

/-- The text has no blanks. -/
def BlankFree (text : List Char) : Prop := ∀ c ∈ text, isBlank c = false

instance (text : List Char) : Decidable (BlankFree text) :=
  List.decidableBAll (fun c => isBlank c = false) text

/-- The text is a word: it is not empty and has no blanks. -/
structure IsWord (text : List Char) : Prop where
  /-- there is something -/
  ne_nil : text ≠ []
  /-- and it is in one piece -/
  blankFree : BlankFree text

instance (text : List Char) : Decidable (IsWord text) :=
  decidable_of_iff (text ≠ [] ∧ BlankFree text) ⟨fun h => ⟨h.1, h.2⟩, fun h => ⟨h.1, h.2⟩⟩

/-- Texts without blanks are put together, and taken apart. -/
theorem blankFree_append {xs ys : List Char} :
    BlankFree (xs ++ ys) ↔ BlankFree xs ∧ BlankFree ys :=
  List.forall_mem_append

/-- Or character by character. -/
theorem blankFree_cons {c : Char} {text : List Char} :
    BlankFree (c :: text) ↔ isBlank c = false ∧ BlankFree text :=
  List.forall_mem_cons

/-! ## Words

Blanks end words and nothing else does. So the words of a line are found from its start, one by one. -/

/-- Characters that are no blanks continue the word. Nothing is known yet of where the word will
end. -/
theorem wordsFrom_append {text : List Char} (h : BlankFree text) (word rest : List Char) :
    wordsFrom word (text ++ rest) = wordsFrom (text.reverse ++ word) rest := by
  induction text generalizing word with
  | nil => rfl
  | cons c text ih =>
    obtain ⟨hc, htext⟩ := blankFree_cons.1 h
    rw [List.cons_append, wordsFrom, if_neg (by simp [hc]), ih htext]
    simp

/-- A word is read as the only one. -/
theorem words_of_isWord {word : List Char} (h : IsWord word) : words word = [word] := by
  have hword := wordsFrom_append h.blankFree [] []
  rw [List.append_nil, List.append_nil] at hword
  rw [words, hword, wordsFrom, if_neg (by simpa using h.ne_nil), List.reverse_reverse]

/-- A blank ends the words before it. -/
theorem wordsFrom_append_blank {c : Char} (hc : isBlank c = true) (word text rest : List Char) :
    wordsFrom word (text ++ c :: rest) = wordsFrom word text ++ words rest := by
  induction text generalizing word with
  | nil =>
    rw [List.nil_append, wordsFrom, wordsFrom, if_pos hc]
    split <;> rfl
  | cons d text ih =>
    rw [List.cons_append, wordsFrom, wordsFrom]
    split
    · split <;> simp [ih]
    · exact ih _

/-- A word at the start of a line is its first, if a blank follows. -/
theorem words_append_blank {word : List Char} (h : IsWord word) {c : Char}
    (hc : isBlank c = true) (rest : List Char) :
    words (word ++ c :: rest) = word :: words rest := by
  rw [words, wordsFrom_append_blank hc, ← words, words_of_isWord h]
  rfl

/-- Some words with single spaces between them. -/
def unwords : List (List Char) → List Char
  | [] => []
  | [word] => word
  | word :: rest => word ++ ' ' :: unwords rest

/-- What is written word by word is read word by word, since none of the words is empty or has a
blank. -/
theorem words_unwords {ws : List (List Char)} (h : ∀ w ∈ ws, IsWord w) :
    words (unwords ws) = ws := by
  induction ws with
  | nil => rfl
  | cons w ws ih =>
    obtain ⟨hw, hws⟩ := List.forall_mem_cons.1 h
    cases ws with
    | nil => exact words_of_isWord hw
    | cons v rest =>
      have hfirst : unwords (w :: v :: rest) = w ++ ' ' :: unwords (v :: rest) := rfl
      rw [hfirst, words_append_blank hw (by decide), ih hws]

/-- Only words are ever found: a blank that finds no word begun adds none. The induction is on the
text. -/
theorem isWord_of_mem_wordsFrom {text word w : List Char} (hword : BlankFree word)
    (h : w ∈ wordsFrom word text) : IsWord w := by
  induction text generalizing word with
  | nil =>
    unfold wordsFrom at h
    cases word with
    | nil => exact absurd h List.not_mem_nil
    | cons c word =>
      obtain rfl : w = (c :: word).reverse := by simpa using h
      exact ⟨by simp, fun d hd => hword d (List.mem_reverse.1 hd)⟩
  | cons c text ih =>
    unfold wordsFrom at h
    by_cases hc : isBlank c = true
    · cases word with
      | nil =>
        rw [if_pos hc] at h
        exact ih hword h
      | cons d word =>
        rw [if_pos hc, if_neg (by simp)] at h
        obtain rfl | hrest := List.mem_cons.1 h
        · exact ⟨by simp, fun e he => hword e (List.mem_reverse.1 he)⟩
        · exact ih (fun _ he => absurd he List.not_mem_nil) hrest
    · rw [if_neg hc] at h
      exact ih (blankFree_cons.2 ⟨by simpa using hc, hword⟩) h

/-- The words of a text are words. -/
theorem isWord_of_mem_words {text w : List Char} (h : w ∈ words text) : IsWord w :=
  isWord_of_mem_wordsFrom (fun _ hc => absurd hc List.not_mem_nil) h

/-! ## Trimming

A line is trimmed before its words are taken. That changes its first and its last character, but not
the words. -/

/-- Blanks in front start no word. -/
theorem words_trimStart (text : List Char) : words (trimStart text) = words text := by
  induction text with
  | nil => rfl
  | cons c text ih =>
    by_cases hc : isBlank c = true
    · rw [trimStart, List.dropWhile_cons_of_pos hc, words_cons_blank hc]
      exact ih
    · rw [trimStart, List.dropWhile_cons_of_neg hc]

/-- Blanks at the end start no word. -/
theorem wordsFrom_append_blanks {blanks : List Char} (h : ∀ c ∈ blanks, isBlank c = true)
    (word text : List Char) : wordsFrom word (text ++ blanks) = wordsFrom word text := by
  -- blanks alone have no words
  have hnone : wordsFrom [] blanks = [] := by
    induction blanks with
    | nil => rfl
    | cons c blanks ih =>
      obtain ⟨hc, hrest⟩ := List.forall_mem_cons.1 h
      rw [wordsFrom, if_pos hc]
      exact ih hrest
  induction text generalizing word with
  | nil =>
    cases blanks with
    | nil => rfl
    | cons c blanks =>
      obtain ⟨hc, -⟩ := List.forall_mem_cons.1 h
      have hrest : wordsFrom [] blanks = [] := by
        rw [wordsFrom, if_pos hc] at hnone
        exact hnone
      have hcons : wordsFrom word (c :: blanks) =
          if word.isEmpty then wordsFrom [] blanks else word.reverse :: wordsFrom [] blanks := by
        rw [wordsFrom, if_pos hc]
      rw [List.nil_append, hcons, hrest]
      rfl
  | cons c text ih =>
    rw [List.cons_append, wordsFrom, wordsFrom, ih, ih]

/-- Blanks at the ends change no word. -/
theorem words_trim (text : List Char) : words (trim text) = words text := by
  have hsplit : trim text ++ ((trimStart text).reverse.takeWhile isBlank).reverse =
      trimStart text := by
    rw [trim, trimStart, ← List.reverse_append, List.takeWhile_append_dropWhile,
      List.reverse_reverse]
  have hblanks : ∀ c ∈ ((trimStart text).reverse.takeWhile isBlank).reverse, isBlank c = true :=
    fun c hc => List.all_eq_true.1 List.all_takeWhile c (List.mem_reverse.1 hc)
  rw [← words_trimStart text, ← hsplit]
  exact (wordsFrom_append_blanks hblanks [] (trim text)).symm

/-- There is something else than blanks in the text. -/
def Filled (text : List Char) : Prop := ∃ c ∈ text, isBlank c = false

instance (text : List Char) : Decidable (Filled text) :=
  inferInstanceAs (Decidable (∃ c ∈ text, isBlank c = false))

/-- A text that is not filled has only blanks, if anything. -/
theorem not_filled_iff {text : List Char} : ¬ Filled text ↔ ∀ c ∈ text, isBlank c = true := by
  simp [Filled]

/-- Nothing is left of a text just if it has only blanks. -/
theorem trim_eq_nil_iff {text : List Char} : trim text = [] ↔ ¬ Filled text := by
  rw [trim, List.reverse_eq_nil_iff, trimStart, List.dropWhile_eq_nil_iff, not_filled_iff]
  simp only [List.mem_reverse]
  constructor
  · intro hblank c hc
    rw [← List.takeWhile_append_dropWhile (p := isBlank) (l := text), List.mem_append] at hc
    obtain hc | hc := hc
    · exact List.all_eq_true.1 List.all_takeWhile c hc
    · exact hblank c hc
  · intro hblank c hc
    exact hblank c ((List.dropWhile_sublist _).subset hc)

/-- A character that is no blank stays in front. -/
theorem head?_trim {c : Char} (hc : isBlank c = false) (rest : List Char) :
    (trim (c :: rest)).head? = some c := by
  have hstart : trimStart (c :: rest) = c :: rest :=
    List.dropWhile_cons_of_neg (by simp [hc])
  rw [trim, hstart, List.head?_reverse, trimStart, List.reverse_cons, List.dropWhile_append]
  split
  · rw [List.dropWhile_cons_of_neg (by simp [hc]), List.getLast?_singleton]
  · rw [List.getLast?_concat]

/-! ## Pieces -/

/-- What is in no piece and is not the mark between them is nowhere in the text. -/
theorem not_mem_intercalate {c mark : Char} (hc : c ≠ mark) {pieces : List (List Char)}
    (h : ∀ piece ∈ pieces, c ∉ piece) : c ∉ [mark].intercalate pieces := by
  induction pieces with
  | nil => exact List.not_mem_nil
  | cons piece rest ih =>
    obtain ⟨hpiece, hrest⟩ := List.forall_mem_cons.1 h
    cases rest with
    | nil => rwa [List.intercalate_singleton]
    | cons next rest =>
      rw [List.intercalate_cons_cons, List.mem_append, List.mem_append, List.mem_singleton]
      rintro ((hmem | hmem) | hmem)
      · exact hpiece hmem
      · exact hc hmem
      · exact ih hrest hmem

/-! ## Lines

A line feed ends a line, and a carriage return before it is dropped with it. What follows the last
line feed is a line if there is anything; so a text that ends in one has no empty line at its end. -/

/-- A text without blanks is on one line. -/
theorem BlankFree.feed_not_mem {text : List Char} (h : BlankFree text) : '\n' ∉ text := by
  intro hmem
  exact absurd (h _ hmem) (by decide)

/-- Characters other than line feeds continue the line. -/
theorem linesFrom_append {text : List Char} (h : '\n' ∉ text) (line rest : List Char) :
    linesFrom line (text ++ rest) = linesFrom (text.reverse ++ line) rest := by
  induction text generalizing line with
  | nil => rfl
  | cons c text ih =>
    obtain ⟨hc, htext⟩ := List.ne_and_not_mem_of_not_mem_cons h
    rw [List.cons_append, linesFrom, if_neg (Ne.symm hc), ih htext]
    simp

/-- A line without a carriage return at its end is taken as it is. -/
theorem endedLine_reverse {text : List Char} (h : text.getLast? ≠ some '\r') :
    endedLine text.reverse = text := by
  unfold endedLine
  split
  · next line heq =>
    rw [← List.head?_reverse, heq] at h
    exact absurd rfl h
  · exact List.reverse_reverse text

/-- What is written line by line is read line by line, if no line has a line end in it. -/
theorem lines_flatMap_feed_of_not_mem {ls : List (List Char)}
    (h : ∀ l ∈ ls, '\n' ∉ l ∧ '\r' ∉ l) : lines (ls.flatMap fun l => l ++ ['\n']) = ls := by
  induction ls with
  | nil => rfl
  | cons l ls ih =>
    obtain ⟨⟨hfeed, hreturn⟩, hls⟩ := List.forall_mem_cons.1 h
    rw [List.flatMap_cons, List.append_assoc, lines, linesFrom_append hfeed, List.append_nil,
      List.singleton_append, linesFrom, if_pos rfl,
      endedLine_reverse fun hlast => hreturn (List.mem_of_getLast? hlast)]
    exact congrArg (l :: ·) (ih hls)

/-- In a list of lines that are numbered from some number on, a line with `P` behind lines with `Q` is the
first one, or this one has `Q` and it is further on. -/
theorem exists_before_cons_iff {α : Type} {P Q : α → Prop} {x : α} {xs : List α} {number n : Nat} :
    (∃ before y after, x :: xs = before ++ y :: after ∧ n = number + before.length ∧ P y ∧
      ∀ z ∈ before, Q z) ↔
    n = number ∧ P x ∨ Q x ∧ ∃ before y after, xs = before ++ y :: after ∧
      n = number + 1 + before.length ∧ P y ∧ ∀ z ∈ before, Q z := by
  constructor
  · rintro ⟨before, y, after, hsplit, hn, hy, hbefore⟩
    cases before with
    | nil =>
      obtain ⟨rfl, rfl⟩ := List.cons.inj hsplit
      exact .inl ⟨hn, hy⟩
    | cons first before =>
      obtain ⟨rfl, rfl⟩ := List.cons.inj hsplit
      obtain ⟨hfirst, hbefore⟩ := List.forall_mem_cons.1 hbefore
      refine .inr ⟨hfirst, before, y, after, rfl, ?_, hy, hbefore⟩
      rw [hn, List.length_cons]
      omega
  · rintro (⟨rfl, hx⟩ | ⟨hx, before, y, after, rfl, rfl, hy, hbefore⟩)
    · exact ⟨[], x, xs, rfl, rfl, hx, fun z hz => absurd hz List.not_mem_nil⟩
    · refine ⟨x :: before, y, after, rfl, ?_, hy, List.forall_mem_cons.2 ⟨hx, hbefore⟩⟩
      rw [List.length_cons]
      omega

/-- All lines of the text are ended: it is empty, or a line feed comes last. -/
def Ended (text : List Char) : Prop := ∀ c ∈ text.getLast?, c = '\n'

instance (text : List Char) : Decidable (Ended text) :=
  inferInstanceAs (Decidable (∀ c ∈ text.getLast?, c = '\n'))

/-- A line feed at the end ends the last line. -/
theorem ended_concat_feed (text : List Char) : Ended (text ++ ['\n']) := by
  simp [Ended]

/-- A text has ended lines, and then the start of a line without a line feed. Either may be missing. -/
theorem exists_ended_append (text : List Char) :
    ∃ start line, text = start ++ line ∧ Ended start ∧ '\n' ∉ line := by
  induction text using List.reverseRecOn with
  | nil => exact ⟨[], [], rfl, nofun, List.not_mem_nil⟩
  | append_singleton text c ih =>
    by_cases hc : c = '\n'
    · subst hc
      exact ⟨text ++ ['\n'], [], (List.append_nil _).symm, ended_concat_feed text, List.not_mem_nil⟩
    · obtain ⟨start, line, rfl, hstart, hline⟩ := ih
      refine ⟨start, line ++ [c], List.append_assoc _ _ _, hstart, ?_⟩
      rw [List.mem_append, List.mem_singleton, not_or]
      exact ⟨hline, Ne.symm hc⟩

/-- What comes behind a line feed is split on its own. -/
theorem linesFrom_append_feed (line text rest : List Char) :
    linesFrom line (text ++ '\n' :: rest) = linesFrom line (text ++ ['\n']) ++ lines rest := by
  induction text generalizing line with
  | nil =>
    rw [List.nil_append, List.nil_append, linesFrom, if_pos rfl, linesFrom, if_pos rfl]
    rfl
  | cons c text ih =>
    rw [List.cons_append, List.cons_append, linesFrom, linesFrom]
    split
    · rw [ih, List.cons_append]
    · exact ih _

/-- So is what comes behind ended lines. -/
theorem lines_append {start : List Char} (h : Ended start) (rest : List Char) :
    lines (start ++ rest) = lines start ++ lines rest := by
  obtain rfl | ⟨text, c, rfl⟩ := start.eq_nil_or_concat'
  · rfl
  · obtain rfl : c = '\n' := h c (by simp)
    rw [List.append_assoc, List.singleton_append]
    exact linesFrom_append_feed [] text rest

/-- A text without line feeds is one line, if it is not empty. -/
theorem lines_of_not_mem {line : List Char} (h : '\n' ∉ line) :
    lines line = if line = [] then [] else [line] := by
  have hfrom := linesFrom_append h [] []
  rw [List.append_nil, List.append_nil] at hfrom
  rw [lines, hfrom, linesFrom, List.reverse_reverse]
  simp

/-- With a line feed behind it, it is one in any case, also if it is empty. -/
theorem lines_concat_feed {line : List Char} (h : '\n' ∉ line) :
    lines (line ++ ['\n']) = [endedLine line.reverse] := by
  rw [lines, linesFrom_append h, List.append_nil, linesFrom, if_pos rfl]
  rfl

/-- Dropping the carriage return adds no character. -/
theorem mem_of_mem_endedLine {line : List Char} {c : Char} (h : c ∈ endedLine line) : c ∈ line := by
  unfold endedLine at h
  split at h
  · exact List.mem_cons_of_mem _ (List.mem_reverse.1 h)
  · exact List.mem_reverse.1 h

/-- A line has characters of the text only. -/
theorem mem_of_mem_linesFrom {line text l : List Char} (h : l ∈ linesFrom line text) {c : Char}
    (hc : c ∈ l) : c ∈ line ∨ c ∈ text := by
  induction text generalizing line with
  | nil =>
    rw [linesFrom] at h
    split at h
    · exact absurd h List.not_mem_nil
    · obtain rfl := List.mem_singleton.1 h
      exact .inl (List.mem_reverse.1 hc)
  | cons d text ih =>
    rw [linesFrom] at h
    split at h
    · obtain rfl | h := List.mem_cons.1 h
      · exact .inl (mem_of_mem_endedLine hc)
      · exact .inr (List.mem_cons_of_mem _ ((ih h).resolve_left List.not_mem_nil))
    · obtain hmem | hmem := ih h
      · obtain rfl | hmem := List.mem_cons.1 hmem
        · exact .inr List.mem_cons_self
        · exact .inl hmem
      · exact .inr (List.mem_cons_of_mem _ hmem)

/-- Whatever is in a line is in the text. -/
theorem mem_of_mem_lines {text line : List Char} (h : line ∈ lines text) {c : Char} (hc : c ∈ line) :
    c ∈ text :=
  (mem_of_mem_linesFrom h hc).resolve_left List.not_mem_nil

end Telescope.Text
