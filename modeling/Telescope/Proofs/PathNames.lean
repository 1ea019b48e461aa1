import Mathlib.Data.List.Basic
import Telescope.Files.Path

/-!
# The names of a path

A path is a text, but what it leads to depends only on its names and on whether it starts at the root.

* `Path.names_join`: what is joined to a path adds its names to those of the path, unless it is absolute;
  then it drops them and has only its own. Whether the whole is absolute is told by `Path.isAbsolute_join`.
* `Path.isName_of_mem_names`: no name has a slash, so a part is added as a single name just if it is one
  (`Path.names_of_isName`).
* `Path.exists_lastName`: what follows a text without a slash is the end of the last name.

What is joined here may be a part with slashes in it, and it may be an absolute path. The laws are
stated for any text, and say what each of the two changes; that a part is a name is asked only where
it is needed.
-/

namespace Telescope.Path

variable {base part other : String}

/-- A name has no slash and is not empty. -/
structure IsName (part : String) : Prop where
  /-- there is something -/
  ne_nil : part.toList ≠ []
  /-- and no slash in it -/
  slash : '/' ∉ part.toList

instance (part : String) : Decidable (IsName part) :=
  decidable_of_iff (part.toList ≠ [] ∧ '/' ∉ part.toList) ⟨fun h => ⟨h.1, h.2⟩, fun h => ⟨h.1, h.2⟩⟩

/-- A name does not start at the root, having no slash to start with. -/
theorem IsName.relative (h : IsName part) : isAbsolute part = false := by
  rw [isAbsolute, beq_eq_false_iff_ne]
  exact fun hhead => h.slash (List.mem_of_head? hhead)

/-- What follows a text does not change where it starts, unless there is nothing that it follows. -/
theorem isAbsolute_append (h : part ≠ "") (more : String) :
    isAbsolute (part ++ more) = isAbsolute part := by
  rw [isAbsolute, isAbsolute, String.toList_append,
    List.head?_append_of_ne_nil _ (by rwa [Ne, String.toList_eq_nil_iff])]

/-! ## Parts

The two cases of `Path.join`, the empty base and the base that ends in a slash, are put away here.
What comes later sees only that the part follows something that ends a name. -/

/-- What stands in front of a relative part: the base, and a slash if it needs one. -/
def front (base : String) : List Char :=
  if base.isEmpty || base.toList.getLast? == some '/' then base.toList else base.toList ++ ['/']

/-- A relative part stands behind the front of its base, unchanged. -/
theorem toList_join (h : isAbsolute part = false) :
    (join base part).toList = front base ++ part.toList := by
  unfold isAbsolute at h
  unfold join front
  rw [h, if_neg Bool.false_ne_true]
  split <;> simp

/-- Nothing stands in front of a relative part, or something that ends in a slash. -/
theorem front_eq (base : String) :
    base = "" ∧ front base = [] ∨
      ∃ start, front base = start ++ ['/'] ∧ (base.toList = start ∨ base.toList = start ++ ['/']) := by
  unfold front
  split
  · next h =>
    rw [Bool.or_eq_true, beq_iff_eq, String.isEmpty_iff] at h
    obtain rfl | hlast := h
    · exact .inl ⟨rfl, rfl⟩
    · obtain ⟨start, hstart⟩ := List.getLast?_eq_some_iff.1 hlast
      exact .inr ⟨start, hstart, .inr hstart⟩
  · exact .inr ⟨_, rfl, .inl rfl⟩

/-- A path is absolute if what was joined to it last is, or what that was joined to. What stands
between has no say, since an absolute part has replaced it or a relative one has left it. -/
theorem isAbsolute_join (base part : String) :
    isAbsolute (join base part) = (isAbsolute part || isAbsolute base) := by
  cases h : isAbsolute part with
  | true => rw [join_absolute h, h, Bool.true_or]
  | false =>
    rw [Bool.false_or, isAbsolute, toList_join h, isAbsolute]
    by_cases hbase : base = ""
    · rw [hbase]
      exact h
    · have hne : base.toList ≠ [] := by rwa [Ne, String.toList_eq_nil_iff]
      obtain ⟨more, hmore⟩ : ∃ more, front base = base.toList ++ more := by
        unfold front
        split
        · exact ⟨[], (List.append_nil _).symm⟩
        · exact ⟨['/'], rfl⟩
      rw [hmore, List.append_assoc, List.head?_append_of_ne_nil _ hne]

/-! ## Names -/

/-- A slash ends a name. -/
theorem namesFrom_append_slash (start xs ys : List Char) :
    namesFrom start (xs ++ '/' :: ys) = namesFrom start xs ++ namesFrom [] ys := by
  induction xs generalizing start with
  | nil =>
    rw [List.nil_append, namesFrom.eq_2, if_pos rfl, namesFrom.eq_1]
    split <;> rfl
  | cons c xs ih =>
    rw [List.cons_append, namesFrom, namesFrom]
    split
    · split
      · exact ih []
      · rw [ih [], List.cons_append]
    · exact ih (c :: start)

/-- Without a slash a text is one name. -/
theorem namesFrom_of_not_mem {word : List Char} (hslash : '/' ∉ word) (start : List Char)
    (hne : start.reverse ++ word ≠ []) :
    namesFrom start word = [String.ofList (start.reverse ++ word)] := by
  induction word generalizing start with
  | nil =>
    rw [List.append_nil] at hne ⊢
    rw [namesFrom, if_neg (by simpa using hne)]
  | cons c word ih =>
    obtain ⟨hc, hword⟩ := List.ne_and_not_mem_of_not_mem_cons hslash
    rw [namesFrom, if_neg (Ne.symm hc), ih hword _ (by simp)]
    simp

/-- The names of a name are this one. -/
theorem names_of_isName (h : IsName part) : names part = [part] := by
  have hword := namesFrom_of_not_mem h.slash [] h.ne_nil
  rwa [List.reverse_nil, List.nil_append, String.ofList_toList] at hword

/-- What follows a text without a slash is the end of the last name, whatever it is. -/
theorem exists_lastName (start text : List Char) :
    ∃ last, ∀ word, '/' ∉ word → word ≠ [] →
      (namesFrom start (text ++ word)).getLast? = some (String.ofList (last ++ word)) := by
  induction text generalizing start with
  | nil =>
    refine ⟨start.reverse, fun word hslash hne => ?_⟩
    rw [List.nil_append,
      namesFrom_of_not_mem hslash start (List.append_ne_nil_of_right_ne_nil _ hne)]
    rfl
  | cons c text ih =>
    by_cases hc : c = '/'
    · obtain ⟨last, hlast⟩ := ih []
      refine ⟨last, fun word hslash hne => ?_⟩
      rw [List.cons_append, namesFrom, if_pos hc]
      split
      · exact hlast word hslash hne
      · rw [List.getLast?_cons, hlast word hslash hne, Option.getD_some]
    · obtain ⟨last, hlast⟩ := ih (c :: start)
      refine ⟨last, fun word hslash hne => ?_⟩
      rw [List.cons_append, namesFrom, if_neg hc]
      exact hlast word hslash hne

/-- What stands between slashes has none in it. The induction is on the text, with any beginning of
a name in front of it that has no slash either. -/
theorem isName_of_mem_namesFrom {name : String} {start text : List Char} (hstart : '/' ∉ start)
    (h : name ∈ namesFrom start text) : IsName name := by
  have hended : ∀ {start : List Char}, '/' ∉ start → ¬ start.isEmpty = true →
      IsName (String.ofList start.reverse) :=
    fun hstart hne => ⟨by simpa using hne, by simpa using hstart⟩
  induction text generalizing start with
  | nil =>
    rw [namesFrom] at h
    split at h
    · exact nomatch h
    · next hne =>
      obtain rfl := List.mem_singleton.1 h
      exact hended hstart hne
  | cons c text ih =>
    rw [namesFrom] at h
    split at h
    · split at h
      · exact ih (List.not_mem_nil) h
      · next hne =>
        obtain rfl | h := List.mem_cons.1 h
        · exact hended hstart hne
        · exact ih (List.not_mem_nil) h
    · next hc => exact ih (List.not_mem_cons_of_ne_of_not_mem (Ne.symm hc) hstart) h

/-- So every name of a path is one. -/
theorem isName_of_mem_names {name path : String} (h : name ∈ names path) : IsName name :=
  isName_of_mem_namesFrom List.not_mem_nil h

/-- **Joining adds names,** unless what is joined is absolute; then only its own names are left. -/
theorem names_join (base part : String) :
    names (join base part) = (if isAbsolute part then [] else names base) ++ names part := by
  cases h : isAbsolute part with
  | true => rw [join_absolute h, if_pos rfl, List.nil_append]
  | false =>
    rw [if_neg Bool.false_ne_true, names, toList_join h]
    obtain ⟨rfl, hfront⟩ | ⟨start, hfront, hbase⟩ := front_eq base
    · rw [hfront]
      rfl
    · have hnames : names base = namesFrom [] start := by
        obtain hbase | hbase := hbase
        · rw [names, hbase]
        · rw [names, hbase, namesFrom_append_slash]
          exact List.append_nil _
      rw [hfront, List.append_assoc, List.singleton_append, namesFrom_append_slash, hnames, names]

/-- A name that is joined to a path is one more name of it. -/
theorem names_join_name (h : IsName part) (base : String) :
    names (join base part) = names base ++ [part] := by
  rw [names_join, h.relative, if_neg Bool.false_ne_true, names_of_isName h]

/-- The last name of a path is the one joined to it last. -/
theorem getLast?_names_join (h : IsName part) (base : String) :
    (names (join base part)).getLast? = some part := by
  rw [names_join_name h, List.getLast?_concat]

/-- Parts joined to one directory are told apart, since each is the last name of its path. -/
theorem join_inj (h : IsName part) (h' : IsName other) :
    join base part = join base other ↔ part = other := by
  refine ⟨fun heq => ?_, congrArg (join base)⟩
  have hlast := congrArg (fun path => (names path).getLast?) heq
  simpa only [getLast?_names_join h, getLast?_names_join h', Option.some_inj] using hlast

end Telescope.Path
