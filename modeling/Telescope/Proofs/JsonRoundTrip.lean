import Telescope.Proofs.JsonLiterals

/-!
# JSON is read as it was written

A value all of whose parts can be written (`Json.Plain`) is read back from its text as it was, and from
the front of any text that goes on as one may after a value.

* `Spells.escaped` is the step for strings: every character comes back from its escape.
* `Plain.isRead` is the law for values, by induction on the value. A nested value has a shorter text, so
  the length of the text bounds the depth.
* `Plain.read?_text` is the law for a whole text. There are no control characters in it
  (`Plain.printable`), so it stands on one line whatever the strings in it.

The reader has a bound on the depth of values, in place of a stack that may run out. A text is
always read with its own length as this bound, and that is enough for every value written in it.

Numbers are kept as they stand in the text. What a number is worth is asked only where a field is
taken from an object, so nothing here depends on how doubles are written.
-/

namespace Telescope.Json

/-! ## Strings

A string is read in two passes: first into pieces, where an escape is a piece, and then the pieces are
joined, where two halves make a character. Each escape that is written is one piece. -/

/-- An escape with a letter is the character that the letter stands for. -/
theorem pieces_named {e c : Char} (hunit : e ≠ 'u') (hname : named? e = some c) (text : List Char) :
    pieces ('\\' :: e :: text) = (pieces text).map fun (ps, rest) => (.plain c :: ps, rest) := by
  rw [pieces]
  · rw [hname]
    cases pieces text <;> rfl
  · exact fun _ _ _ _ _ heq => absurd heq hunit

/-- An escape with four digits is a number. -/
theorem pieces_unit {a b c d : Char} {n : Nat} (hunit : hex4? a b c d = some n) (text : List Char) :
    pieces ('\\' :: 'u' :: a :: b :: c :: d :: text) =
      (pieces text).map fun (ps, rest) => (.unit n :: ps, rest) := by
  rw [pieces, hunit]
  cases pieces text <;> rfl

/-- Every other character stands for itself. -/
theorem pieces_plain {c : Char} (hquote : c ≠ '"') (hslash : c ≠ '\\') (hcontrol : 0x20 ≤ c.toNat)
    (text : List Char) :
    pieces (c :: text) = (pieces text).map fun (ps, rest) => (.plain c :: ps, rest) := by
  rw [pieces]
  · rw [if_neg]
    · cases pieces text <;> rfl
    · rintro (hslash' | hlt)
      · exact hslash hslash'
      · omega
  · exact hquote
  · rintro _ _ _ _ _ rfl
    exact fun _ => hslash rfl
  · rintro _ _ rfl
    exact fun _ => hslash rfl

/-- A number that is half of no character is a character. -/
theorem join?_unit {n : Nat} (h : n < 0xd800) (ps : List Piece) :
    join? (.unit n :: ps) = (join? ps).map (Char.ofNat n :: ·) := by
  have hupper : isUpperHalf n = false := by simp [isUpperHalf, h]
  have hlower : isLowerHalf n = false := by
    simp only [isLowerHalf, decide_eq_false_iff_not]
    omega
  cases ps with
  | nil => simp [join?, hupper, hlower]
  | cons p ps => cases p <;> simp [join?, hupper, hlower]

/-- The pieces at the start of a text join to these characters, and this is left. -/
def Spells (text s rest : List Char) : Prop :=
  ∃ ps, pieces text = some (ps, rest) ∧ join? ps = some s

/-- A quotation mark ends a string. -/
theorem spells_quote (rest : List Char) : Spells ('"' :: rest) [] rest :=
  ⟨[], by rw [pieces], rfl⟩

/-- A character in front of a string is its first. -/
theorem Spells.plain {text text' s rest : List Char} {c : Char} (h : Spells text s rest)
    (hpieces : pieces text' = (pieces text).map fun (ps, rest) => (.plain c :: ps, rest)) :
    Spells text' (c :: s) rest := by
  obtain ⟨ps, hps, hjoin⟩ := h
  exact ⟨.plain c :: ps, by rw [hpieces, hps]; rfl, by rw [join?, hjoin]; rfl⟩

/-- The two last digits of a control character's number. -/
theorem hex4?_control : ∀ n < 0x20,
    hex4? '0' '0' (Nat.digitChar (n / 16)) (Nat.digitChar (n % 16)) = some n := by
  decide

/-- **A character comes back from its escape.** There are three ways to write one: by a letter, by a
number, or as it is. -/
theorem Spells.escaped {text s rest : List Char} (h : Spells text s rest) (c : Char) :
    Spells (escaped c ++ text) (c :: s) rest := by
  unfold Json.escaped
  split
  · exact h.plain (pieces_named (by decide) rfl text)
  · exact h.plain (pieces_named (by decide) rfl text)
  · exact h.plain (pieces_named (by decide) rfl text)
  · exact h.plain (pieces_named (by decide) rfl text)
  · exact h.plain (pieces_named (by decide) rfl text)
  · exact h.plain (pieces_named (by decide) rfl text)
  · exact h.plain (pieces_named (by decide) rfl text)
  · next hquote hslash _ _ _ _ _ =>
    split
    · next hcontrol =>
      obtain ⟨ps, hps, hjoin⟩ := h
      refine ⟨.unit c.toNat :: ps, ?_, ?_⟩
      · exact (pieces_unit (hex4?_control _ hcontrol) text).trans (by rw [hps]; rfl)
      · rw [join?_unit (by omega), hjoin, Char.ofNat_toNat]
        rfl
    · next hcontrol => exact h.plain (pieces_plain hquote hslash (by omega) text)

/-- By induction, a string comes back from its escapes. -/
theorem spells_flatMap (s rest : List Char) :
    Spells (s.flatMap Json.escaped ++ '"' :: rest) s rest := by
  induction s with
  | nil => exact spells_quote rest
  | cons c s ih =>
    rw [List.flatMap_cons, List.append_assoc]
    exact ih.escaped c

/-- A string is read as it was written. -/
theorem string?_stringText (s : String) (rest : List Char) :
    ∃ text, stringText (some s) ++ rest = '"' :: text ∧ string? text = some (some s, rest) := by
  obtain ⟨ps, hps, hjoin⟩ := spells_flatMap s.toList rest
  refine ⟨s.toList.flatMap escaped ++ '"' :: rest, by simp [stringText], ?_⟩
  rw [string?, hps]
  simp [hjoin]

/-! ## Values

The induction on a value needs two things of its parts: that they are read from the front of a text,
and that their depth is in the bound. `IsRead` has both. -/

/-- All parts of the value can be written: its numbers are numbers, and its strings are texts. -/
inductive Plain : Json → Prop
  | null : Plain .null
  | bool (b : Bool) : Plain (.bool b)
  | number {l : List Char} (h : Literal l) : Plain (.number l)
  | string (s : String) : Plain (.ofText s)
  | array {items : List Json} (h : ∀ x ∈ items, Plain x) : Plain (.array items)
  | object {fields : List (Option String × Json)} (hnames : ∀ f ∈ fields, f.1 ≠ none)
    (h : ∀ f ∈ fields, Plain f.2) : Plain (.object fields)

/-- Names that are texts can be written. -/
theorem plain_ofFields {fields : List (String × Json)} (h : ∀ f ∈ fields, Plain f.2) :
    Plain (.ofFields fields) := by
  refine .object (fun f hf => ?_) fun f hf => ?_
  all_goals obtain ⟨field, hfield, rfl⟩ := List.mem_map.1 hf
  · exact nofun
  · exact h field hfield

/-- Nothing is skipped before a character that is no blank. -/
theorem skip_cons {c : Char} (h : isSpace c = false) (rest : List Char) :
    skip (c :: rest) = c :: rest :=
  List.dropWhile_cons_of_neg (by simp [h])

/-- The first characters of other values than numbers, and those that end a value. -/
def marks : List Char := ['n', 't', 'f', '"', '[', '\x7b', ',', ']', '\x7d']

/-- A number starts with none of these, nor with a blank. -/
theorem number_head {c : Char} (h : c = '-' ∨ c.isDigit = true) :
    isSpace c = false ∧ ∀ d ∈ marks, c ≠ d := by
  obtain rfl | hdigit := h
  · exact ⟨by decide, by simp [marks]⟩
  · refine ⟨?_, ?_⟩
    · rw [Bool.eq_false_iff]
      intro hspace
      simp only [isSpace, Bool.or_eq_true, beq_iff_eq] at hspace
      obtain ((rfl | rfl) | rfl) | rfl := hspace <;> exact absurd hdigit (by decide)
    · rintro d hd rfl
      have hmarks : marks.all (fun d => !d.isDigit) = true := by decide
      have hother := List.all_eq_true.1 hmarks c hd
      rw [hdigit] at hother
      exact absurd hother (by decide)

/-- A value starts with a character that is no blank and ends nothing. -/
theorem Plain.exists_cons {v : Json} (h : Plain v) :
    ∃ c rest, text v = c :: rest ∧ isSpace c = false ∧ c ≠ ']' := by
  cases h with
  | null => exact ⟨_, _, rfl, by decide, by decide⟩
  | bool b => cases b <;> exact ⟨_, _, rfl, by decide, by decide⟩
  | number h =>
    obtain ⟨c, rest, rfl, hc⟩ := h.exists_cons
    obtain ⟨hspace, hother⟩ := number_head hc
    exact ⟨c, rest, rfl, hspace, hother _ (by decide)⟩
  | string s => exact ⟨_, _, rfl, by decide, by decide⟩
  | @array items h => cases items <;> exact ⟨_, _, rfl, by decide, by decide⟩
  | @object fields h => cases fields <;> exact ⟨_, _, rfl, by decide, by decide⟩

section Steps

variable {depth : Nat} {text rest rest' : List Char} {x : Json}

/-- A value that starts like a number is one. -/
theorem value_number {c : Char} (h : c = '-' ∨ c.isDigit = true) :
    value (depth + 1) (c :: text) = (literal? (c :: text)).map fun (l, rest) => (.number l, rest) := by
  obtain ⟨hspace, hother⟩ := number_head h
  rw [value, skip_cons hspace]
  split
  case h_7 => rfl
  all_goals
    next heq => exact absurd (List.cons.inj heq).1 (hother _ (by decide))

/-- A value that starts with a quotation mark is a string. -/
theorem value_string (s : String) :
    value (depth + 1) (stringText (some s) ++ rest) = some (.ofText s, rest) := by
  obtain ⟨text, htext, hread⟩ := string?_stringText s rest
  have hspace : isSpace '"' = false := by decide
  rw [htext]
  simp only [value, skip_cons hspace, hread]
  rfl

/-- A bracket, a value and the values left are an array. -/
theorem value_array {xs : List Json} {c : Char} (hspace : isSpace c = false) (hend : c ≠ ']')
    (hx : value depth (c :: text) = some (x, rest)) (hxs : items depth rest = some (xs, rest')) :
    value (depth + 1) ('[' :: c :: text) = some (.array (x :: xs), rest') := by
  have hopen : isSpace '[' = false := by decide
  simp only [value, skip_cons hopen, skip_cons hspace]
  split
  · next heq => exact absurd (List.cons.inj heq).1 hend
  · simp only [hx, hxs, Option.map_some]

/-- The values left of an array start with a comma and a value. -/
theorem items_cons {xs : List Json} (hx : value depth text = some (x, rest))
    (hxs : items depth rest = some (xs, rest')) :
    items (depth + 1) (',' :: text) = some (x :: xs, rest') := by
  have hcomma : isSpace ',' = false := by decide
  simp only [items, skip_cons hcomma, hx, hxs, Option.map_some]

/-- The name of a field ends with a colon. -/
theorem name?_stringText (s : String) (rest : List Char) :
    name? (stringText (some s) ++ ':' :: rest) = some (some s, rest) := by
  obtain ⟨text, htext, hread⟩ := string?_stringText s (':' :: rest)
  have hquote : isSpace '"' = false := by decide
  have hcolon : isSpace ':' = false := by decide
  rw [htext]
  simp only [name?, skip_cons hquote, hread, skip_cons hcolon]

/-- A brace, a field and the fields left are an object. -/
theorem value_object {fs : List (Option String × Json)} (name : String)
    (hx : value depth text = some (x, rest)) (hfs : fields depth rest = some (fs, rest')) :
    value (depth + 1) ('\x7b' :: (stringText (some name) ++ ':' :: text)) =
      some (.object ((some name, x) :: fs), rest') := by
  have hname := name?_stringText name text
  obtain ⟨tail, htail⟩ : ∃ tail, stringText (some name) ++ ':' :: text = '"' :: tail := ⟨_, rfl⟩
  have hbrace : isSpace '\x7b' = false := by decide
  have hquote : isSpace '"' = false := by decide
  rw [htail] at hname ⊢
  simp only [value, skip_cons hbrace, skip_cons hquote]
  split
  · next heq => exact absurd (List.cons.inj heq).1 (by decide)
  · simp only [hname, hx, hfs, Option.map_some]

/-- The fields left of an object start with a comma and a field. -/
theorem fields_cons {fs : List (Option String × Json)} (name : String)
    (hx : value depth text = some (x, rest)) (hfs : fields depth rest = some (fs, rest')) :
    fields (depth + 1) (',' :: (stringText (some name) ++ ':' :: text)) =
      some ((some name, x) :: fs, rest') := by
  have hcomma : isSpace ',' = false := by decide
  simp only [fields, skip_cons hcomma, name?_stringText, hx, hfs, Option.map_some]

end Steps

/-- The value is read as it was written, and what comes after it is left. -/
def IsRead (v : Json) : Prop :=
  ∀ {depth : Nat} {rest : List Char}, Ends rest → (text v).length < depth →
    value depth (text v ++ rest) = some (v, rest)

/-- What is left of an array may follow a value. -/
theorem ends_itemsText (xs : List Json) (rest : List Char) : Ends (itemsText xs ++ rest) := by
  cases xs with
  | nil => exact ends_cons (by decide) _
  | cons x xs => exact ends_cons (by decide) _

/-- So may what is left of an object. -/
theorem ends_fieldsText (fs : List (Option String × Json)) (rest : List Char) :
    Ends (fieldsText fs ++ rest) := by
  cases fs with
  | nil => exact ends_cons (by decide) _
  | cons f fs => exact ends_cons (by decide) _

/-- The values left of an array are read one after the other. Each has a text that is shorter than
the whole. -/
theorem items_text {xs : List Json} (h : ∀ x ∈ xs, IsRead x) {depth : Nat}
    (hdepth : (itemsText xs).length < depth) (rest : List Char) :
    items depth (itemsText xs ++ rest) = some (xs, rest) := by
  induction xs generalizing depth with
  | nil =>
    obtain ⟨depth, rfl⟩ := Nat.exists_eq_succ_of_ne_zero (Nat.ne_zero_of_lt hdepth)
    rfl
  | cons x xs ih =>
    obtain ⟨depth, rfl⟩ := Nat.exists_eq_succ_of_ne_zero (Nat.ne_zero_of_lt hdepth)
    obtain ⟨hx, hxs⟩ := List.forall_mem_cons.1 h
    rw [itemsText, List.length_cons, List.length_append] at hdepth
    rw [itemsText, List.cons_append, List.append_assoc]
    exact items_cons (hx (ends_itemsText xs rest) (by omega)) (ih hxs (by omega))

/-- And so are the fields left of an object. Their names are strings, so the law for strings is used
for each. -/
theorem fields_text {fs : List (Option String × Json)} (hnames : ∀ f ∈ fs, f.1 ≠ none)
    (h : ∀ f ∈ fs, IsRead f.2) {depth : Nat} (hdepth : (fieldsText fs).length < depth)
    (rest : List Char) : fields depth (fieldsText fs ++ rest) = some (fs, rest) := by
  induction fs generalizing depth with
  | nil =>
    obtain ⟨depth, rfl⟩ := Nat.exists_eq_succ_of_ne_zero (Nat.ne_zero_of_lt hdepth)
    rfl
  | cons f fs ih =>
    obtain ⟨depth, rfl⟩ := Nat.exists_eq_succ_of_ne_zero (Nat.ne_zero_of_lt hdepth)
    obtain ⟨hname, hothers⟩ := List.forall_mem_cons.1 hnames
    obtain ⟨hx, hfs⟩ := List.forall_mem_cons.1 h
    obtain ⟨name, x⟩ := f
    obtain ⟨name, rfl⟩ := Option.ne_none_iff_exists'.1 hname
    change IsRead x at hx
    simp only [fieldsText, List.length_cons, List.length_append] at hdepth
    simp only [fieldsText, List.cons_append, List.append_assoc]
    exact fields_cons name (hx (ends_fieldsText fs rest) (by omega)) (ih hothers hfs (by omega))

/-- **A value is read as it was written,** and what comes after it is left. There is one case for
each kind of value, and the two nested kinds use the induction for their parts. -/
theorem Plain.isRead {v : Json} (h : Plain v) : IsRead v := by
  induction h with
  | null =>
    intro depth rest hrest hdepth
    obtain ⟨depth, rfl⟩ := Nat.exists_eq_succ_of_ne_zero (Nat.ne_zero_of_lt hdepth)
    rfl
  | bool b =>
    intro depth rest hrest hdepth
    obtain ⟨depth, rfl⟩ := Nat.exists_eq_succ_of_ne_zero (Nat.ne_zero_of_lt hdepth)
    cases b <;> rfl
  | @number l h =>
    intro depth rest hrest hdepth
    obtain ⟨depth, rfl⟩ := Nat.exists_eq_succ_of_ne_zero (Nat.ne_zero_of_lt hdepth)
    have hread := h.literal?_append hrest
    obtain ⟨c, tail, rfl, hc⟩ := h.exists_cons
    have hvalue : value (depth + 1) (c :: tail ++ rest) =
        (literal? (c :: tail ++ rest)).map fun (l, rest) => (.number l, rest) := value_number hc
    rw [text, hvalue, hread]
    rfl
  | string s =>
    intro depth rest hrest hdepth
    obtain ⟨depth, rfl⟩ := Nat.exists_eq_succ_of_ne_zero (Nat.ne_zero_of_lt hdepth)
    exact value_string s
  -- the parts of an array and of an object have shorter texts, so the depth is enough for them
  | @array items h ih =>
    intro depth rest hrest hdepth
    obtain ⟨depth, rfl⟩ := Nat.exists_eq_succ_of_ne_zero (Nat.ne_zero_of_lt hdepth)
    cases items with
    | nil => rfl
    | cons x xs =>
      obtain ⟨hx, hxs⟩ := List.forall_mem_cons.1 ih
      obtain ⟨c, tail, htext, hspace, hend⟩ := (h x List.mem_cons_self).exists_cons
      rw [text, List.length_cons, List.length_append] at hdepth
      have hfirst := @hx depth _ (ends_itemsText xs rest) (by omega)
      rw [htext] at hfirst
      rw [text, htext, List.cons_append, List.append_assoc]
      exact value_array hspace hend hfirst (items_text hxs (by omega) rest)
  | @object fields hnames h ih =>
    intro depth rest hrest hdepth
    obtain ⟨depth, rfl⟩ := Nat.exists_eq_succ_of_ne_zero (Nat.ne_zero_of_lt hdepth)
    cases fields with
    | nil => rfl
    | cons f fs =>
      obtain ⟨hname, hothers⟩ := List.forall_mem_cons.1 hnames
      obtain ⟨hx, hfs⟩ := List.forall_mem_cons.1 ih
      obtain ⟨name, x⟩ := f
      obtain ⟨name, rfl⟩ := Option.ne_none_iff_exists'.1 hname
      change IsRead x at hx
      simp only [text, List.length_cons, List.length_append] at hdepth
      simp only [text, List.cons_append, List.append_assoc]
      exact value_object name (hx (ends_fieldsText fs rest) (by omega))
        (fields_text hothers hfs (by omega) rest)

/-- A whole text is read as the value it was written for. -/
theorem Plain.read?_text {v : Json} (h : Plain v) : read? (text v) = some v := by
  have hread := h.isRead ends_nil (Nat.lt_succ_self (text v).length)
  rw [List.append_nil] at hread
  rw [read?, hread]
  rfl

/-! ## Lines

A trace has one value on each line. That no value takes more than its line is a matter of the
control characters, of which line ends are two. -/

/-- The text has no control characters. -/
def Printable (text : List Char) : Prop := ∀ c ∈ text, 0x20 ≤ c.toNat

/-- Texts without control characters are put together, and taken apart. -/
theorem printable_append {xs ys : List Char} :
    Printable (xs ++ ys) ↔ Printable xs ∧ Printable ys :=
  List.forall_mem_append

/-- Or character by character. -/
theorem printable_cons {c : Char} {text : List Char} :
    Printable (c :: text) ↔ 0x20 ≤ c.toNat ∧ Printable text :=
  List.forall_mem_cons

/-- No line ends in such a text. -/
theorem Printable.not_mem {text : List Char} (h : Printable text) : '\n' ∉ text ∧ '\r' ∉ text :=
  ⟨fun hmem => absurd (h _ hmem) (by decide), fun hmem => absurd (h _ hmem) (by decide)⟩

/-- No character of a number is one of them. -/
theorem printable_of_numeric {text : List Char} (h : Numeric text) : Printable text := by
  intro c hc
  obtain hdigit | hmark := h c hc
  · have hzero : '0'.toNat = 48 := rfl
    have hlow := (Char.isDigit_iff_toNat.1 hdigit).1
    omega
  · have hmarks : (['.', '-', '+', 'e', 'i', 'n', 'f', 'N', 'a'].all fun c => 0x20 ≤ c.toNat) = true := by
      decide
    simpa using List.all_eq_true.1 hmarks c hmark

/-- Control characters are escaped, and the escapes are printable. -/
theorem printable_escaped (c : Char) : Printable (escaped c) := by
  have hdigit : ∀ n < 16, 0x20 ≤ (Nat.digitChar n).toNat := by decide
  unfold escaped
  split
  iterate 7 simp [Printable]
  split
  · next hcontrol =>
    have hfirst := hdigit (c.toNat / 16) (by omega)
    have hsecond := hdigit (c.toNat % 16) (Nat.mod_lt _ (by decide))
    simp [Printable, hfirst, hsecond]
  · next hcontrol => simpa [Printable] using hcontrol

/-- So strings are printable, whatever is in them. -/
theorem printable_stringText (s : Option String) : Printable (stringText s) := by
  cases s with
  | none => simp [stringText, Printable]
  | some s =>
    refine printable_cons.2 ⟨by decide, printable_append.2 ⟨?_, by simp [Printable]⟩⟩
    intro c hc
    obtain ⟨d, -, hc⟩ := List.mem_flatMap.1 hc
    exact printable_escaped d c hc

/-- So are arrays of printable values. -/
theorem printable_itemsText {xs : List Json} (h : ∀ x ∈ xs, Printable (text x)) :
    Printable (itemsText xs) := by
  induction xs with
  | nil => simp [itemsText, Printable]
  | cons x xs ih =>
    obtain ⟨hx, hxs⟩ := List.forall_mem_cons.1 h
    exact printable_cons.2 ⟨by decide, printable_append.2 ⟨hx, ih hxs⟩⟩

/-- And objects of such. -/
theorem printable_fieldsText {fs : List (Option String × Json)} (h : ∀ f ∈ fs, Printable (text f.2)) :
    Printable (fieldsText fs) := by
  induction fs with
  | nil => simp [fieldsText, Printable]
  | cons f fs ih =>
    obtain ⟨hx, hfs⟩ := List.forall_mem_cons.1 h
    exact printable_cons.2 ⟨by decide, printable_append.2 ⟨printable_stringText _,
      printable_cons.2 ⟨by decide, printable_append.2 ⟨hx, ih hfs⟩⟩⟩⟩

/-- The text of a value has no control characters, since strings are written with escapes. -/
theorem Plain.printable {v : Json} (h : Plain v) : Printable (text v) := by
  induction h with
  | null => simp [text, Printable]
  | bool b => cases b <;> simp [text, Printable]
  | number h => exact printable_of_numeric h.numeric
  | string s => exact printable_stringText _
  | @array items h ih =>
    cases items with
    | nil => simp [text, Printable]
    | cons x xs =>
      obtain ⟨hx, hxs⟩ := List.forall_mem_cons.1 ih
      exact printable_cons.2 ⟨by decide, printable_append.2 ⟨hx, printable_itemsText hxs⟩⟩
  | @object fields hnames h ih =>
    cases fields with
    | nil => simp [text, Printable]
    | cons f fs =>
      obtain ⟨hx, hfs⟩ := List.forall_mem_cons.1 ih
      exact printable_cons.2 ⟨by decide, printable_append.2 ⟨printable_stringText _,
        printable_cons.2 ⟨by decide, printable_append.2 ⟨hx, printable_fieldsText hfs⟩⟩⟩⟩

end Telescope.Json
