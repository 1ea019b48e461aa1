import Mathlib.Data.List.Basic
import Telescope.Files.Tree

/-!
# Laws of file trees

What the operations on a file tree leave in it, and what they need to succeed:

* `locate_eq_ok`: a path that names a file leads through directories to a place in the last of them, so
  it still leads there as long as these directories stay (`locate_of_keeps`);
* `write_eq_ok` and `read_eq_ok`: a file is written at any such place that is no directory, and what was
  written there last is read (`read_of_write`), also after files of other names were written
  (`read_of_write_elsewhere`);
* `makeFrom_extends`: making directories only adds to a tree, and making them again changes nothing
  (`makeFrom_again`);
* `walk`: where a path leads does not depend on the tree, and an operation changes nothing but what its
  path leads to, or through if it makes directories (`get?_makeDirectories`, `get?_of_write`,
  `get?_of_allowExecution`).

A tree changes in two ways. Files are written and directories are made, and both leave the
directories that are there; that is all a path needs to lead where it did (`KeepsDirectories`).
Where only directories are made, the files stay as well (`Extends`).

Paths may be relative or absolute, with dots in them or not. None of the laws asks, since each
follows what `start` and `step` make of a path.
-/

namespace Telescope.Files

variable {files later : Files} {place : List String} {path text : String}

/-- Steps in a row succeed if the first one does and the others do with what it gave. -/
theorem bind_eq_ok {α β : Type} {x : Except FileError α} {f : α → Except FileError β} {b : β} :
    (x >>= f) = .ok b ↔ ∃ a, x = .ok a ∧ f a = .ok b := by
  cases x with
  | error e => exact ⟨nofun, nofun⟩
  | ok a => exact ⟨fun h => ⟨a, rfl, h⟩, fun ⟨_, ha, h⟩ => Except.ok.inj ha ▸ h⟩

/-! ## Trees that grow

The two relations are reflexive and transitive, so what holds of a step holds of a run. -/

/-- The working directory is the same and every directory of the tree is still one. Files may have
changed. -/
structure KeepsDirectories (files later : Files) : Prop where
  /-- paths start where they did -/
  home : later.home = files.home
  /-- and no way is blocked -/
  directory : ∀ place, files.get? place = some .directory → later.get? place = some .directory

/-- The working directory is the same and every entry of the tree is still what it was. -/
structure Extends (files later : Files) : Prop where
  /-- paths start where they did -/
  home : later.home = files.home
  /-- and nothing is lost -/
  entry : ∀ place entry, files.get? place = some entry → later.get? place = some entry

/-- Nothing is lost where nothing happens. -/
theorem KeepsDirectories.refl (files : Files) : files.KeepsDirectories files := ⟨rfl, fun _ h => h⟩

/-- Nor in two changes, neither of which loses a directory. -/
theorem KeepsDirectories.trans {last : Files} (h : files.KeepsDirectories later)
    (h' : later.KeepsDirectories last) : files.KeepsDirectories last where
  home := h'.home.trans h.home
  directory := fun place hplace => h'.directory place (h.directory place hplace)

/-- What keeps every entry keeps the directories among them. -/
theorem Extends.keeps (h : files.Extends later) : files.KeepsDirectories later where
  home := h.home
  directory := fun place => h.entry place .directory

/-- Every tree adds nothing to itself. -/
theorem Extends.refl (files : Files) : files.Extends files := ⟨rfl, fun _ _ h => h⟩

/-- What is added to an addition is added to the first. -/
theorem Extends.trans {last : Files} (h : files.Extends later) (h' : later.Extends last) :
    files.Extends last where
  home := h'.home.trans h.home
  entry := fun place entry hentry => h'.entry place entry (h.entry place entry hentry)

/-- The working directory is there, and so are those that it is in. -/
theorem get?_of_isPrefix (h : place <+: files.home) : files.get? place = some .directory := by
  rw [get?, if_pos h]

/-- Every path starts in a directory, be it the root or the working directory. -/
theorem get?_start (files : Files) (path : String) :
    files.get? (start files.home path) = some .directory := by
  refine get?_of_isPrefix ?_
  unfold start
  split
  · exact List.nil_prefix
  · exact List.prefix_rfl

/-- Where there is no directory an entry can be made: the working directory and those above it cannot be
replaced. -/
theorem not_isPrefix_of_get? (h : files.get? place ≠ some .directory) : ¬ place <+: files.home :=
  fun hway => h (get?_of_isPrefix hway)

/-- A new entry where there is none adds to the tree. It cannot hide the working directory, which is
no place without an entry. -/
theorem extends_put (h : files.get? place = none) (entry : Entry) :
    files.Extends (files.put place entry) where
  home := rfl
  entry := by
    intro other e he
    rwa [get?_put_of_ne]
    rintro rfl
    exact nomatch h.symm.trans he

/-- An entry that takes the place of none or of a file leaves the directories alone: no way went
through it. -/
theorem keeps_put (h : files.get? place ≠ some .directory) (entry : Entry) :
    files.KeepsDirectories (files.put place entry) where
  home := rfl
  directory := by
    intro other hother
    rwa [get?_put_of_ne]
    rintro rfl
    exact h hother

/-! ## Ways

A way is followed name by name. So its laws come from those of one step, by induction on the names. -/

/-- A name is entered if it leads to a directory. -/
theorem enter_eq_ok {name : String} {next : List String} :
    files.enter place name = .ok next ↔
      step place name = .ok next ∧ files.get? next = some .directory := by
  rw [enter, bind_eq_ok]
  constructor
  · rintro ⟨a, hstep, hnext⟩
    cases hentry : files.get? a with
    | none => simp [hentry] at hnext
    | some entry =>
      cases entry with
      | directory =>
        simp only [hentry, Except.ok.injEq] at hnext
        exact ⟨hnext ▸ hstep, hnext ▸ hentry⟩
      | file text executable => simp [hentry] at hnext
  · rintro ⟨hstep, hentry⟩
    exact ⟨next, hstep, by simp [hentry]⟩

/-- A way through directories stays a way as long as they stay. What else is in the tree has no say
in it. -/
theorem follow_of_keeps (h : files.KeepsDirectories later) {names : List String}
    {directory : List String} (hfollow : files.follow place names = .ok directory) :
    later.follow place names = .ok directory := by
  induction names generalizing place with
  | nil => exact hfollow
  | cons name rest ih =>
    rw [follow, List.foldlM_cons, bind_eq_ok] at hfollow ⊢
    obtain ⟨next, henter, hrest⟩ := hfollow
    obtain ⟨hstep, hentry⟩ := enter_eq_ok.1 henter
    exact ⟨next, enter_eq_ok.2 ⟨hstep, h.directory next hentry⟩, ih hrest⟩

/-- The last name of a way is entered from where the others have led. -/
theorem follow_concat_eq_ok {name : String} {names next : List String} :
    files.follow place (names ++ [name]) = .ok next ↔
      ∃ there, files.follow place names = .ok there ∧ files.enter there name = .ok next := by
  rw [follow, List.foldlM_append, bind_eq_ok]
  simp only [List.foldlM_cons, List.foldlM_nil, bind_pure]
  rfl

/-- A way through directories ends in one. -/
theorem get?_of_follow {names directory : List String}
    (hplace : files.get? place = some .directory)
    (hfollow : files.follow place names = .ok directory) :
    files.get? directory = some .directory := by
  induction names generalizing place with
  | nil => exact Except.ok.inj hfollow ▸ hplace
  | cons name rest ih =>
    rw [follow, List.foldlM_cons, bind_eq_ok] at hfollow
    obtain ⟨next, henter, hrest⟩ := hfollow
    exact ih (enter_eq_ok.1 henter).2 hrest

/-- A name other than the two for directories leads to a place below. -/
theorem eq_of_step {name : String} {next : List String} (h : step place name = .ok next)
    (hhere : name ≠ ".") (habove : name ≠ "..") : next = place ++ [name] := by
  unfold step at h
  rw [if_neg (by simpa using hhere), if_neg (by simpa using habove)] at h
  split at h
  · exact nomatch h
  · exact (Except.ok.inj h).symm

/-- What a path needs to name a file: a way to a directory, and a name in it. The directories
themselves, under either of their names, are no files. -/
theorem locate_eq_ok :
    files.locate path = .ok place ↔
      ∃ names last directory, check path = .ok () ∧ Path.names path = names ++ [last] ∧
        files.follow (start files.home path) names = .ok directory ∧
        step directory last = .ok place ∧ last ≠ "." ∧ last ≠ ".." := by
  rw [locate, bind_eq_ok]
  constructor
  · rintro ⟨⟨⟩, hcheck, h⟩
    cases hlast : (Path.names path).getLast? with
    | none => simp [hlast] at h
    | some last =>
      obtain ⟨names, hnames⟩ := List.getLast?_eq_some_iff.1 hlast
      simp only [hnames, List.getLast?_concat, List.dropLast_concat, bind_eq_ok] at h
      obtain ⟨directory, hfollow, a, hstep, hplace⟩ := h
      by_cases hdots : (last == "." || last == "..") = true
      · simp [hdots] at hplace
      · rw [if_neg hdots] at hplace
        obtain rfl := Except.ok.inj hplace
        simp only [Bool.or_eq_true, beq_iff_eq, not_or] at hdots
        exact ⟨names, last, directory, hcheck, hnames, hfollow, hstep, hdots⟩
  · rintro ⟨names, last, directory, hcheck, hnames, hfollow, hstep, hhere, habove⟩
    refine ⟨(), hcheck, ?_⟩
    simp only [hnames, List.getLast?_concat, List.dropLast_concat, bind_eq_ok]
    refine ⟨directory, hfollow, place, hstep, ?_⟩
    rw [if_neg (by simp [hhere, habove])]

/-- A path leads to the same place as long as the directories on the way stay. Whether it can be a
path at all is a matter of the text. -/
theorem locate_of_keeps (h : files.KeepsDirectories later) (hplace : files.locate path = .ok place) :
    later.locate path = .ok place := by
  obtain ⟨names, last, directory, hcheck, hnames, hfollow, hrest⟩ := locate_eq_ok.1 hplace
  refine locate_eq_ok.2 ⟨names, last, directory, hcheck, hnames, ?_, hrest⟩
  rw [h.home]
  exact follow_of_keeps h hfollow

/-- A file is in the directory that the names before its own lead to. -/
theorem exists_above_of_locate (h : files.locate path = .ok place) :
    ∃ names last above, Path.names path = names ++ [last] ∧
      files.follow (start files.home path) names = .ok above ∧ place = above ++ [last] := by
  obtain ⟨names, last, above, -, hnames, hfollow, hstep, hhere, habove⟩ := locate_eq_ok.1 h
  exact ⟨names, last, above, hnames, hfollow, eq_of_step hstep hhere habove⟩

/-- The last name of a path is the last of its place. -/
theorem getLast?_of_locate (h : files.locate path = .ok place) :
    place.getLast? = (Path.names path).getLast? := by
  obtain ⟨names, last, above, hnames, -, rfl⟩ := exists_above_of_locate h
  rw [hnames, List.getLast?_concat, List.getLast?_concat]

/-! ## Reading and writing

Each operation is opened once, by an equivalence that says all it needs and all it does. What
follows is taken from these, and no proof looks into the operations again. -/

/-- Whether there is a file that can be executed. -/
def executable (files : Files) (place : List String) : Bool :=
  match files.get? place with
  | some (.file _ executable) => executable
  | _ => false

/-- A file is written if its path leads to a place, which is no directory, and does not end in a
slash. What could be executed there can be so afterwards. -/
theorem write_eq_ok :
    files.write path text = .ok later ↔
      ∃ place, files.locate path = .ok place ∧ Path.endsInSlash path = false ∧
        files.get? place ≠ some .directory ∧
        later = files.put place (.file text (files.executable place)) := by
  rw [write, bind_eq_ok]
  refine exists_congr fun place => and_congr_right fun _ => ?_
  cases hslash : Path.endsInSlash path with
  | true => simp
  | false =>
    rw [if_neg Bool.false_ne_true, executable]
    cases hentry : files.get? place with
    | none => simp [eq_comm]
    | some entry => cases entry <;> simp [eq_comm]

/-- A file is read under the same conditions, if there is one. -/
theorem read_eq_ok :
    files.read path = .ok text ↔
      ∃ place executable, files.locate path = .ok place ∧ Path.endsInSlash path = false ∧
        files.get? place = some (.file text executable) := by
  rw [read, bind_eq_ok]
  refine exists_congr fun place => ?_
  rw [exists_and_left]
  refine and_congr_right fun _ => ?_
  cases hentry : files.get? place with
  | none => simp
  | some entry =>
    cases entry with
    | directory => simp
    | file t executable => cases Path.endsInSlash path <;> simp

/-- Writing leaves the directories alone. -/
theorem keeps_of_write (h : files.write path text = .ok later) : files.KeepsDirectories later := by
  obtain ⟨place, -, -, hplace, rfl⟩ := write_eq_ok.1 h
  exact keeps_put hplace _

/-- What was written is read, from the same place: the new file is no directory, so the way has not
changed. -/
theorem read_of_write (h : files.write path text = .ok later) : later.read path = .ok text := by
  obtain ⟨place, hlocate, hslash, hplace, rfl⟩ := write_eq_ok.1 h
  exact read_eq_ok.2 ⟨place, _, locate_of_keeps (keeps_put hplace _) hlocate, hslash,
    get?_put_self files (not_isPrefix_of_get? hplace) _⟩

/-- Whether a file can be written does not depend on the text. A row that is written later needs no
other place than the header. -/
theorem exists_write_of_write (h : files.write path text = .ok later) (text' : String) :
    ∃ last, files.write path text' = .ok last := by
  obtain ⟨place, hlocate, hslash, hplace, -⟩ := write_eq_ok.1 h
  exact ⟨_, write_eq_ok.2 ⟨place, hlocate, hslash, hplace, rfl⟩⟩

/-- A file that was written can be written again. -/
theorem exists_write_again (h : files.write path text = .ok later) (text' : String) :
    ∃ last, later.write path text' = .ok last := by
  obtain ⟨place, hlocate, hslash, hplace, rfl⟩ := write_eq_ok.1 h
  refine ⟨_, write_eq_ok.2 ⟨place, locate_of_keeps (keeps_put hplace _) hlocate, hslash, ?_, rfl⟩⟩
  rw [get?_put_self files (not_isPrefix_of_get? hplace)]
  exact nofun

/-- What is added to a tree changes no file. -/
theorem read_of_extends (h : files.Extends later) (hread : files.read path = .ok text) :
    later.read path = .ok text := by
  obtain ⟨place, executable, hlocate, hslash, hentry⟩ := read_eq_ok.1 hread
  exact read_eq_ok.2
    ⟨place, executable, locate_of_keeps h.keeps hlocate, hslash, h.entry _ _ hentry⟩

/-- Nor does writing a file of another name. The places of the two differ in their last names,
wherever the paths lead. -/
theorem read_of_write_elsewhere {other text' : String} (h : files.write other text' = .ok later)
    (hne : (Path.names path).getLast? ≠ (Path.names other).getLast?)
    (hread : files.read path = .ok text) : later.read path = .ok text := by
  obtain ⟨written, hwritten, -, hfile, rfl⟩ := write_eq_ok.1 h
  obtain ⟨place, executable, hlocate, hslash, hentry⟩ := read_eq_ok.1 hread
  refine read_eq_ok.2 ⟨place, executable, locate_of_keeps (keeps_put hfile _) hlocate, hslash, ?_⟩
  rwa [get?_put_of_ne]
  rintro rfl
  exact hne ((getLast?_of_locate hlocate).symm.trans (getLast?_of_locate hwritten))

/-- A file or a directory is marked as executable where it is found. For a directory this changes
nothing. -/
theorem allowExecution_eq_ok :
    files.allowExecution path = .ok later ↔
      ∃ place, files.locate path = .ok place ∧
        (files.get? place = some .directory ∧ later = files ∨
          ∃ text executable, files.get? place = some (.file text executable) ∧
            later = files.put place (.file text true)) := by
  rw [allowExecution, bind_eq_ok]
  refine exists_congr fun place => and_congr_right fun _ => ?_
  cases hentry : files.get? place with
  | none => simp
  | some entry => cases entry <;> simp [eq_comm]

/-- Making a file executable leaves the directories alone. -/
theorem keeps_of_allowExecution (h : files.allowExecution path = .ok later) :
    files.KeepsDirectories later := by
  obtain ⟨place, -, ⟨-, rfl⟩ | ⟨text, executable, hentry, rfl⟩⟩ := allowExecution_eq_ok.1 h
  · exact .refl _
  · exact keeps_put (by rw [hentry]; exact nofun) _

/-- A file keeps its text when one is made executable, be it this file or another. If it is the
other, then the places differ, and one of them has not changed. -/
theorem read_of_allowExecution {other : String} (h : files.allowExecution other = .ok later)
    (hread : files.read path = .ok text) : later.read path = .ok text := by
  obtain ⟨changed, -, ⟨-, rfl⟩ | ⟨text', executable', hchanged, rfl⟩⟩ := allowExecution_eq_ok.1 h
  · exact hread
  · have hfile : files.get? changed ≠ some .directory := by
      rw [hchanged]
      exact nofun
    obtain ⟨place, executable, hlocate, hslash, hentry⟩ := read_eq_ok.1 hread
    refine read_eq_ok.2 ?_
    by_cases hsame : place = changed
    · subst hsame
      obtain ⟨rfl, -⟩ := Entry.file.inj (Option.some.inj (hchanged.symm.trans hentry))
      exact ⟨place, true, locate_of_keeps (keeps_put hfile _) hlocate, hslash,
        get?_put_self files (not_isPrefix_of_get? hfile) _⟩
    · exact ⟨place, executable, locate_of_keeps (keeps_put hfile _) hlocate, hslash,
        by rwa [get?_put_of_ne files hsame]⟩

/-! ## Making directories

Making goes down the names and may fail at any of them. What it made until then stays, so the laws
of failure are those of success. -/

/-- Making directories only adds to the tree, also if it fails. The induction is on the names that
are left. -/
theorem makeFrom_extends (files : Files) (place names : List String) :
    files.Extends (files.makeFrom place names).1 := by
  induction names generalizing files place with
  | nil => exact .refl files
  | cons name rest ih =>
    unfold makeFrom
    cases step place name with
    | error e => exact .refl files
    | ok next =>
      dsimp only
      cases hnext : files.get? next with
      | none => exact (extends_put hnext _).trans (ih _ _)
      | some entry =>
        cases entry with
        | directory => exact ih files next
        | file text executable => exact .refl files

/-- Where directories were made, they are found. So making them once more changes nothing, whatever
was written in the meantime. -/
theorem makeFrom_again {names : List String} (h : (files.makeFrom place names).2 = .ok ())
    (hkeeps : (files.makeFrom place names).1.KeepsDirectories later) :
    later.makeFrom place names = (later, .ok ()) := by
  induction names generalizing files place with
  | nil => rfl
  | cons name rest ih =>
    unfold makeFrom at h hkeeps ⊢
    cases hstep : step place name with
    | error e => simp [hstep] at h
    | ok next =>
      simp only [hstep] at h hkeeps ⊢
      -- in the first tree the next directory was there or was made
      cases hnext : files.get? next with
      | none =>
        simp only [hnext] at h hkeeps
        have hput : (files.put next .directory).get? next = some .directory :=
          get?_put_self files (not_isPrefix_of_get? (by rw [hnext]; exact nofun)) _
        rw [hkeeps.directory next ((makeFrom_extends _ _ _).entry next _ hput)]
        exact ih h hkeeps
      | some entry =>
        cases entry with
        | directory =>
          simp only [hnext] at h hkeeps
          rw [hkeeps.directory next ((makeFrom_extends _ _ _).entry next _ hnext)]
          exact ih h hkeeps
        | file text executable => simp [hnext] at h

/-- The same of a whole path. -/
theorem makeDirectories_extends (files : Files) (path : String) :
    files.Extends (files.makeDirectories path).1 := by
  unfold makeDirectories
  cases check path with
  | error e => exact .refl files
  | ok => exact makeFrom_extends files _ _

/-- Making a directory again changes nothing. -/
theorem makeDirectories_again (h : (files.makeDirectories path).2 = .ok ())
    (hkeeps : (files.makeDirectories path).1.KeepsDirectories later) :
    later.makeDirectories path = (later, .ok ()) := by
  unfold makeDirectories at h hkeeps ⊢
  cases hcheck : check path with
  | error e => simp [hcheck] at h
  | ok =>
    simp only [hcheck] at h hkeeps ⊢
    rw [hkeeps.home, (makeFrom_extends _ _ _).home]
    exact makeFrom_again h hkeeps

/-- A path that can be one is made name by name from where it starts. -/
theorem makeDirectories_eq_ok :
    files.makeDirectories path = (later, .ok ()) ↔
      check path = .ok () ∧
        files.makeFrom (start files.home path) (Path.names path) = (later, .ok ()) := by
  unfold makeDirectories
  cases check path with
  | error e => simp
  | ok => simp

/-- The directories that were made are a way. Each was entered when it was made or found, and those
that were made later have not removed it. -/
theorem follow_of_makeFrom {names : List String}
    (h : files.makeFrom place names = (later, .ok ())) :
    ∃ directory, later.follow place names = .ok directory := by
  induction names generalizing files place with
  | nil => exact ⟨place, rfl⟩
  | cons name rest ih =>
    unfold makeFrom at h
    cases hstep : step place name with
    | error e => simp [hstep] at h
    | ok next =>
      simp only [hstep] at h
      -- whether the next directory was there or not, it is there while the rest is made
      obtain ⟨files', hnext, hrest⟩ : ∃ files' : Files, files'.get? next = some .directory ∧
          files'.makeFrom next rest = (later, .ok ()) := by
        cases hentry : files.get? next with
        | none =>
          simp only [hentry] at h
          exact ⟨_, get?_put_self files (not_isPrefix_of_get? (by rw [hentry]; exact nofun)) _, h⟩
        | some entry =>
          cases entry with
          | directory =>
            simp only [hentry] at h
            exact ⟨files, hentry, h⟩
          | file text executable => simp [hentry] at h
      have hextends := makeFrom_extends files' next rest
      rw [hrest] at hextends
      obtain ⟨directory, hfollow⟩ := ih hrest
      refine ⟨directory, ?_⟩
      rw [follow, List.foldlM_cons, bind_eq_ok]
      exact ⟨next, enter_eq_ok.2 ⟨hstep, hextends.entry next _ hnext⟩, hfollow⟩

/-- The directory that a path leads to. -/
def directoryOf (files : Files) (path : String) : Except FileError (List String) :=
  files.follow (start files.home path) (Path.names path)

/-- It leads to the same directory as long as those on the way stay. -/
theorem directoryOf_of_keeps {directory : List String} (h : files.KeepsDirectories later)
    (hdirectory : files.directoryOf path = .ok directory) : later.directoryOf path = .ok directory := by
  rw [directoryOf, h.home]
  exact follow_of_keeps h hdirectory

/-- A directory that was made is there. -/
theorem directoryOf_of_makeDirectories (h : files.makeDirectories path = (later, .ok ())) :
    ∃ directory, later.directoryOf path = .ok directory := by
  have hextends := files.makeDirectories_extends path
  rw [h] at hextends
  rw [directoryOf, hextends.home]
  exact follow_of_makeFrom (makeDirectories_eq_ok.1 h).2

/-! ## What stays as it is

Here paths are followed without a tree. That is possible because a step up drops a name and does not
ask the tree, and there are no links. So it can be said from the paths alone which places an
operation may change, and all others are as they were. -/

/-- Where names lead from a place, whatever there is. -/
def walk (place names : List String) : Except FileError (List String) :=
  names.foldlM step place

/-- Where a path leads, seen from a working directory. -/
def LeadsTo (home : List String) (path : String) (place : List String) : Prop :=
  walk (start home path) (Path.names path) = .ok place

/-- A place that a path leads to or through: some of its names, from the first on, lead there. -/
def OnTheWay (home : List String) (path : String) (place : List String) : Prop :=
  ∃ names, names <+: Path.names path ∧ walk (start home path) names = .ok place

/-- The first of the names is a step. -/
theorem walk_cons_eq_ok {name : String} {names next : List String} :
    walk place (name :: names) = .ok next ↔
      ∃ there, step place name = .ok there ∧ walk there names = .ok next := by
  rw [walk, List.foldlM_cons, bind_eq_ok]
  rfl

/-- So is the last one. -/
theorem walk_concat_eq_ok {name : String} {names next : List String} :
    walk place (names ++ [name]) = .ok next ↔
      ∃ there, walk place names = .ok there ∧ step there name = .ok next := by
  rw [walk, List.foldlM_append, bind_eq_ok]
  simp only [List.foldlM_cons, List.foldlM_nil, bind_pure]
  rfl

/-- A way through a tree leads where the names lead anyway. The tree only has to agree. -/
theorem walk_of_follow {names directory : List String}
    (h : files.follow place names = .ok directory) : walk place names = .ok directory := by
  induction names generalizing place with
  | nil => exact h
  | cons name rest ih =>
    rw [follow, List.foldlM_cons, bind_eq_ok] at h
    obtain ⟨next, henter, hrest⟩ := h
    exact walk_cons_eq_ok.2 ⟨next, (enter_eq_ok.1 henter).1, ih hrest⟩

/-- The place of a file is where its path leads. -/
theorem leadsTo_of_locate (h : files.locate path = .ok place) : LeadsTo files.home path place := by
  obtain ⟨names, last, directory, -, hnames, hfollow, hstep, -⟩ := locate_eq_ok.1 h
  rw [LeadsTo, hnames]
  exact walk_concat_eq_ok.2 ⟨directory, walk_of_follow hfollow, hstep⟩

/-- Making directories leaves a place alone that the names do not lead through. The induction is on
the names: what the first of them makes is where one name leads. -/
theorem get?_makeFrom (files : Files) {names other : List String}
    (h : ∀ way, way <+: names → walk place way ≠ .ok other) :
    (files.makeFrom place names).1.get? other = files.get? other := by
  induction names generalizing files place with
  | nil => rfl
  | cons name rest ih =>
    unfold makeFrom
    cases hstep : step place name with
    | error e => rfl
    | ok next =>
      have hrest : ∀ way, way <+: rest → walk next way ≠ .ok other := fun way hway hother =>
        h (name :: way) (List.cons_prefix_cons.2 ⟨rfl, hway⟩)
          (walk_cons_eq_ok.2 ⟨next, hstep, hother⟩)
      have hne : other ≠ next := by
        rintro rfl
        exact hrest [] List.nil_prefix rfl
      dsimp only
      cases files.get? next with
      | none => exact (ih _ hrest).trans (get?_put_of_ne files hne _)
      | some entry =>
        cases entry with
        | directory => exact ih files hrest
        | file text executable => rfl

/-- So it is with a whole path. -/
theorem get?_makeDirectories (files : Files) (h : ¬ OnTheWay files.home path place) :
    (files.makeDirectories path).1.get? place = files.get? place := by
  unfold makeDirectories
  cases check path with
  | error e => rfl
  | ok => exact files.get?_makeFrom fun way hway hplace => h ⟨way, hway, hplace⟩

/-- Writing a file leaves other places alone. -/
theorem get?_of_write (hwrite : files.write path text = .ok later)
    (h : ¬ LeadsTo files.home path place) : later.get? place = files.get? place := by
  obtain ⟨written, hlocate, -, -, rfl⟩ := write_eq_ok.1 hwrite
  refine get?_put_of_ne files ?_ _
  rintro rfl
  exact h (leadsTo_of_locate hlocate)

/-- So does making a file executable. -/
theorem get?_of_allowExecution (hexecution : files.allowExecution path = .ok later)
    (h : ¬ LeadsTo files.home path place) : later.get? place = files.get? place := by
  obtain ⟨changed, hlocate, ⟨-, rfl⟩ | ⟨text, executable, -, rfl⟩⟩ :=
    allowExecution_eq_ok.1 hexecution
  · rfl
  · refine get?_put_of_ne files ?_ _
    rintro rfl
    exact h (leadsTo_of_locate hlocate)

end Telescope.Files
