import Telescope.Proofs.ScanWriting

/-!
# Where the files of a scan are

A scan is written to two directories, one for the macros and one for the results. The name of a target
becomes part of the paths in them, and nothing is asked of a name but that it is not blank.

* A path that is joined to a directory is below it, or below the root if it is absolute
  (`Path.below_join`). So the files of a point stay where they should exactly if the name of its target has
  no slash (`Point.staysIn_iff`); otherwise they follow the names between the slashes, whatever these are
  (`Point.leadsAway`).
* A step changes only what its paths lead to or through (`get?_writePoint`), and by induction on the points
  so does a scan, also one that fails (`Request.get?_write`).
* Directories are made for the results, but not for the macros (`directory_of_writePoints`). So there must
  be a directory for a macro already, or one that is made for another reason
  (`Request.hasDirectory_of_write`).

Directories, roots and names may be anything here: relative or absolute, empty, or with dots between
their slashes. What the name of a target does to a path is read from `Path.join`, which starts anew
where an absolute path is joined.
-/

namespace Telescope

namespace Path

variable {base part path : String} {further : List String}

/-- A path that leads from a directory through some names and nowhere else. -/
structure Below (base : String) (further : List String) (path : String) : Prop where
  /-- it starts where the path of the directory does -/
  start : isAbsolute path = isAbsolute base
  /-- it leads to the directory and from there on -/
  names_eq : names path = names base ++ further

/-- **What is joined to a directory is below it,** unless it is absolute. -/
theorem below_join (base part : String) :
    Below (if isAbsolute part then "/" else base) (names part) (join base part) := by
  cases h : isAbsolute part with
  | true =>
    rw [join_absolute h, if_pos rfl]
    exact ⟨h, rfl⟩
  | false =>
    rw [if_neg Bool.false_ne_true]
    refine ⟨?_, ?_⟩
    · rw [isAbsolute_join, h, Bool.false_or]
    · rw [names_join, h, if_neg Bool.false_ne_true]

/-- A name goes on from where a path has led, and leaves its beginning alone. -/
theorem Below.join (h : Below base further path) (hpart : IsName part) :
    Below base (further ++ [part]) (join path part) where
  start := by rw [isAbsolute_join, hpart.relative, Bool.false_or, h.start]
  names_eq := by rw [names_join_name hpart, h.names_eq, List.append_assoc]

/-- The names of a text with a slash: those of what stands before it, and the one that follows. -/
theorem names_divided (outer : String) {inner : String} (h : IsName inner) :
    names (outer ++ "/" ++ inner) = names outer ++ [inner] := by
  have htext : (outer ++ "/" ++ inner).toList = outer.toList ++ '/' :: inner.toList := by simp
  rw [← names_of_isName h, names, htext, namesFrom_append_slash]
  rfl

/-- A text with a slash has a last one, and what follows it has none. -/
theorem exists_divided (h : '/' ∈ path.toList) :
    ∃ outer inner, path = outer ++ "/" ++ inner ∧ '/' ∉ inner.toList := by
  obtain ⟨inner, outer, hreverse, hinner⟩ := List.eq_append_cons_of_mem (List.mem_reverse.2 h)
  refine ⟨String.ofList outer.reverse, String.ofList inner.reverse, ?_, by simpa using hinner⟩
  rw [← String.toList_inj, ← List.reverse_inj, hreverse]
  simp

end Path

namespace Files

variable {home place : List String} {base part : String}

/-- A place directly in the directory that a path leads to, with a name of its own. -/
def In (home : List String) (base part : String) (place : List String) : Prop :=
  ∃ above, LeadsTo home base above ∧ place = above ++ [part]

/-- The two names for directories end in a dot, so no other check is needed for names that do not. -/
theorem ne_dots_of_getLast? (h : part.toList.getLast? ≠ some '.') : part ≠ "." ∧ part ≠ ".." := by
  constructor
  · rintro rfl
    exact h (by decide)
  · rintro rfl
    exact h (by decide)

/-- A name that is joined to a path is looked up from where the path is. -/
theorem start_join (h : Path.IsName part) : start home (Path.join base part) = start home base := by
  rw [start, start, Path.isAbsolute_join, h.relative, Bool.false_or]

/-- A name that does not end in a dot leads to a place in the directory. The names for this
directory and the one above do, and those are the only names that lead elsewhere. -/
theorem in_of_leadsTo (hname : Path.IsName part) (hdot : part.toList.getLast? ≠ some '.')
    (h : LeadsTo home (Path.join base part) place) : In home base part place := by
  obtain ⟨hhere, habove⟩ := ne_dots_of_getLast? hdot
  rw [LeadsTo, start_join hname, Path.names_join_name hname] at h
  obtain ⟨above, hbase, hstep⟩ := walk_concat_eq_ok.1 h
  exact ⟨above, hbase, eq_of_step hstep hhere habove⟩

/-- The way to it is the way to the directory. -/
theorem onTheWay_of_join (hname : Path.IsName part)
    (h : OnTheWay home (Path.join base part) place) :
    OnTheWay home base place ∨ LeadsTo home (Path.join base part) place := by
  obtain ⟨way, hway, hplace⟩ := h
  rw [start_join hname] at hplace
  rw [Path.names_join_name hname, List.prefix_concat_iff] at hway
  obtain rfl | hway := hway
  · exact .inr (by rwa [LeadsTo, start_join hname, Path.names_join_name hname])
  · exact .inl ⟨way, hway, hplace⟩

end Files

namespace Scan

variable {results directory : String} {files later : Files} {points : List Point} {p : Point}
  {place : List String}

/-! ## Paths

What a point writes is told by its name and by where its results go. Both are texts, so this part
does not need any files. -/

namespace Point

/-- The files of a point stay where they should: its macro directly in one directory, its results in a
directory with its name in the other. -/
structure StaysIn (directory results : String) (p : Point) : Prop where
  /-- the macro -/
  macroPath : Path.Below directory [p.stem ++ ".mac"] (p.macroPath directory)
  /-- the results -/
  output : Path.Below results [p.stem, "events.csv"] p.output

/-- The files of a point are led away: before the last name, their paths go through all the others that the
name of the target has, and if it is absolute they start at the root. -/
structure LeadsAway (directory results outer inner : String) (p : Point) : Prop where
  /-- the name of the target up to its last slash, and from there on -/
  targetName : p.targetName = outer ++ "/" ++ inner
  /-- there is no slash after the last one -/
  last : '/' ∉ inner.toList
  /-- the macro -/
  macroPath : Path.Below (if Path.isAbsolute p.targetName then "/" else directory)
    (Path.names outer ++ [stemOf inner p.momentum p.thickness ++ ".mac"]) (p.macroPath directory)
  /-- the results -/
  output : Path.Below (if Path.isAbsolute p.targetName then "/" else results)
    (Path.names outer ++ [stemOf inner p.momentum p.thickness, "events.csv"]) p.output

/-- The results of a point follow all names that its own name has, and start where this name says. -/
theorem output_below
    (houtput : p.output = Path.join (Request.resultDirectory results p.stem) "events.csv") :
    Path.Below (if Path.isAbsolute p.stem then "/" else results) (Path.names p.stem ++ ["events.csv"])
      p.output := by
  rw [houtput]
  exact (Path.below_join results p.stem).join (by decide)

/-- **The files stay exactly if the name has no slash.** A number has none in its text, so a slash
in the name of the point comes from the target. -/
theorem staysIn_iff
    (houtput : p.output = Path.join (Request.resultDirectory results p.stem) "events.csv") :
    p.StaysIn directory results ↔ '/' ∉ p.targetName.toList := by
  constructor
  · intro h hslash
    -- the last name of the macro is made of the whole name of the target
    have hmem : p.stem ++ ".mac" ∈ Path.names (p.macroPath directory) := by
      rw [h.macroPath.names_eq]
      exact List.mem_append_right _ List.mem_cons_self
    refine (Path.isName_of_mem_names hmem).slash ?_
    rw [String.toList_append]
    exact List.mem_append_left _ (slash_mem_stemOf.2 hslash)
  · intro hslash
    have hstem := isName_stem hslash
    have hpath := Path.below_join directory (p.stem ++ ".mac")
    have hresults := output_below houtput
    rw [(isName_file hstem).relative, if_neg Bool.false_ne_true,
      Path.names_of_isName (isName_file hstem)] at hpath
    rw [hstem.relative, if_neg Bool.false_ne_true, Path.names_of_isName hstem] at hresults
    exact ⟨hpath, hresults⟩

/-- What stands in front of the name of a target stands in front of the name of its points. -/
theorem stemOf_append (front name : String) (momentum thickness : Float) :
    stemOf (front ++ name) momentum thickness = front ++ stemOf name momentum thickness := by
  simp only [stemOf, String.append_assoc]

/-- **Any other name leads them away.** The last slash divides the name: what stands before it is
the way, and what follows becomes the name of the files. -/
theorem leadsAway {outer inner : String}
    (houtput : p.output = Path.join (Request.resultDirectory results p.stem) "events.csv")
    (htarget : p.targetName = outer ++ "/" ++ inner) (hlast : '/' ∉ inner.toList) :
    p.LeadsAway directory results outer inner := by
  have hstem : p.stem = outer ++ "/" ++ stemOf inner p.momentum p.thickness := by
    rw [stem, htarget, stemOf_append]
  have hne : outer ++ "/" ≠ "" := by
    rw [Ne, String.append_eq_empty_iff]
    exact fun h => absurd h.2 (by decide)
  have hstart : ∀ more, Path.isAbsolute (outer ++ "/" ++ more) = Path.isAbsolute (outer ++ "/") :=
    Path.isAbsolute_append hne
  have hname : Path.IsName (stemOf inner p.momentum p.thickness) := isName_stemOf hlast
  refine ⟨htarget, hlast, ?_, ?_⟩
  · have hpath := Path.below_join directory
      (outer ++ "/" ++ (stemOf inner p.momentum p.thickness ++ ".mac"))
    rw [hstart, Path.names_divided outer (isName_file hname)] at hpath
    rwa [htarget, hstart, macroPath, hstem, String.append_assoc]
  · have hresults := output_below houtput
    rw [hstem, hstart, Path.names_divided outer hname, List.append_assoc] at hresults
    rwa [htarget, hstart]

end Point

/-! ## Steps

One step makes a directory and writes a file. Each lemma says for a step what the next section says
for all points, and those lemmas are inductions on the list. -/

/-- Writing a point leaves the directories alone, also if it fails. Making directories adds some,
and a file takes the place of none. -/
theorem keeps_writePoint (results directory : String) (p : Point) (files : Files) :
    files.KeepsDirectories (writePoint results directory p files).1 := by
  have hmade := (files.makeDirectories_extends (Request.resultDirectory results p.stem)).keeps
  unfold writePoint
  dsimp only
  generalize files.makeDirectories (Request.resultDirectory results p.stem) = making at hmade ⊢
  obtain ⟨made, result⟩ := making
  cases result with
  | error e => exact hmade
  | ok =>
    dsimp only
    cases hwrite : made.write (p.macroPath directory) p.macroText with
    | error e => exact hmade
    | ok written => exact hmade.trans (Files.keeps_of_write hwrite)

/-- Writing a point changes nothing but what its two paths lead to, and the way to the results. If
the step fails half way, it has changed less. -/
theorem get?_writePoint
    (hresults : ¬ Files.OnTheWay files.home (Request.resultDirectory results p.stem) place)
    (hfile : ¬ Files.LeadsTo files.home (p.macroPath directory) place) :
    (writePoint results directory p files).1.get? place = files.get? place := by
  have hmade := files.get?_makeDirectories hresults
  have hhome := (files.makeDirectories_extends (Request.resultDirectory results p.stem)).home
  unfold writePoint
  dsimp only
  generalize files.makeDirectories (Request.resultDirectory results p.stem) = making
    at hmade hhome ⊢
  obtain ⟨made, result⟩ := making
  cases result with
  | error e => exact hmade
  | ok =>
    dsimp only
    cases hwrite : made.write (p.macroPath directory) p.macroText with
    | error e => exact hmade
    | ok written => exact (Files.get?_of_write hwrite (by rwa [hhome])).trans hmade

/-- So does writing points, also up to a failure. The induction is on the points, and paths are seen
from the working directory, which stays. -/
theorem get?_writePoints
    (hresults : ∀ p ∈ points,
      ¬ Files.OnTheWay files.home (Request.resultDirectory results p.stem) place)
    (hfiles : ∀ p ∈ points, ¬ Files.LeadsTo files.home (p.macroPath directory) place) :
    (writePoints results directory points files).1.get? place = files.get? place := by
  induction points generalizing files with
  | nil => rfl
  | cons p points ih =>
    obtain ⟨hresult, hresults⟩ := List.forall_mem_cons.1 hresults
    obtain ⟨hfile, hfiles⟩ := List.forall_mem_cons.1 hfiles
    have hpoint : (writePoint results directory p files).1.get? place = files.get? place :=
      get?_writePoint hresult hfile
    have hhome := (keeps_writePoint results directory p files).home
    unfold writePoints
    generalize writePoint results directory p files = writing at hpoint hhome ⊢
    obtain ⟨written, result⟩ := writing
    cases result with
    | error e => exact hpoint
    | ok =>
      rw [← hhome] at hresults hfiles
      exact (ih hresults hfiles).trans hpoint

/-- The script is written, and made executable, at one place. -/
theorem get?_writeScript {requestPath : String} {paths : List String}
    (hscript : ¬ Files.LeadsTo files.home (scriptPath directory) place) :
    (writeScript requestPath directory paths files).1.get? place = files.get? place := by
  unfold writeScript
  dsimp only
  cases hwrite : files.write (scriptPath directory) (script requestPath paths) with
  | error e => rfl
  | ok written =>
    have hwritten := Files.get?_of_write hwrite hscript
    rw [← (Files.keeps_of_write hwrite).home] at hscript
    dsimp only
    cases hexecution : written.allowExecution (scriptPath directory) with
    | error e => exact hwritten
    | ok executable => exact (Files.get?_of_allowExecution hexecution hscript).trans hwritten

/-- A step makes no directories but those for the results. A file is not a directory, so writing it
makes none. -/
theorem directory_of_writePoint (h : writePoint results directory p files = (later, .ok ()))
    (hplace : later.get? place = some .directory) :
    files.get? place = some .directory ∨
      Files.OnTheWay files.home (Request.resultDirectory results p.stem) place := by
  obtain ⟨made, hmake, hwrite⟩ := writePoint_eq_ok.1 h
  obtain ⟨written, -, -, hfile, rfl⟩ := Files.write_eq_ok.1 hwrite
  by_cases hway : Files.OnTheWay files.home (Request.resultDirectory results p.stem) place
  · exact .inr hway
  · have hmade := files.get?_makeDirectories hway
    rw [hmake] at hmade
    have hne : place ≠ written := by
      rintro rfl
      rw [Files.get?_put_self made (Files.not_isPrefix_of_get? hfile)] at hplace
      exact nomatch hplace
    rw [Files.get?_put_of_ne made hne] at hplace
    exact .inl (hmade ▸ hplace)

/-! ## Runs

A run of steps ends at the first that fails. What was written until then stays written, and the
lemmas about places hold of it, too. -/

/-- A scan makes no directories but those for the results. So a directory that a macro needs is not
made for it. -/
theorem directory_of_writePoints (h : writePoints results directory points files = (later, .ok ()))
    (hplace : later.get? place = some .directory) :
    files.get? place = some .directory ∨
      ∃ p ∈ points, Files.OnTheWay files.home (Request.resultDirectory results p.stem) place := by
  induction points generalizing files with
  | nil =>
    obtain ⟨rfl, -⟩ := Prod.mk.inj h
    exact .inl hplace
  | cons p points ih =>
    obtain ⟨written, hpoint, hrest⟩ := writePoints_cons_eq_ok.1 h
    have hhome : written.home = files.home := by
      have hkeeps := keeps_writePoint results directory p files
      rw [hpoint] at hkeeps
      exact hkeeps.home
    obtain hwritten | ⟨q, hq, hway⟩ := ih hrest
    · obtain hfiles | hway := directory_of_writePoint hpoint hwritten
      · exact .inl hfiles
      · exact .inr ⟨p, List.mem_cons_self, hway⟩
    · exact .inr ⟨q, List.mem_cons_of_mem _ hq, hhome ▸ hway⟩

/-- No step loses a directory that another has made, so ways stay ways. -/
theorem keeps_writePoints (results directory : String) (points : List Point) (files : Files) :
    files.KeepsDirectories (writePoints results directory points files).1 := by
  induction points generalizing files with
  | nil => exact .refl _
  | cons p points ih =>
    have hpoint := keeps_writePoint results directory p files
    unfold writePoints
    generalize writePoint results directory p files = writing at hpoint ⊢
    obtain ⟨written, result⟩ := writing
    cases result with
    | error e => exact hpoint
    | ok => exact hpoint.trans (ih written)

/-- The same of a run that succeeds. -/
theorem keeps_of_writePoints (h : writePoints results directory points files = (later, .ok ())) :
    files.KeepsDirectories later := by
  have hkeeps := keeps_writePoints results directory points files
  rwa [h] at hkeeps

/-- Every point that was written has a directory for its results, and its macro has a place. Both
were there after its own step, and later steps keep them. -/
theorem directoryOf_of_writePoints (h : writePoints results directory points files = (later, .ok ())) :
    ∀ p ∈ points,
      (∃ place, later.directoryOf (Request.resultDirectory results p.stem) = .ok place) ∧
        ∃ place, later.locate (p.macroPath directory) = .ok place := by
  induction points generalizing files with
  | nil => exact nofun
  | cons first points ih =>
    obtain ⟨written, hpoint, hrest⟩ := writePoints_cons_eq_ok.1 h
    intro p hp
    obtain rfl | hp := List.mem_cons.1 hp
    · obtain ⟨made, hmake, hwrite⟩ := writePoint_eq_ok.1 hpoint
      obtain ⟨there, hthere⟩ := Files.directoryOf_of_makeDirectories hmake
      obtain ⟨place, hlocate, -⟩ := Files.write_eq_ok.1 hwrite
      have hkeeps : made.KeepsDirectories later :=
        (Files.keeps_of_write hwrite).trans (keeps_of_writePoints hrest)
      exact ⟨⟨there, Files.directoryOf_of_keeps hkeeps hthere⟩,
        ⟨place, Files.locate_of_keeps hkeeps hlocate⟩⟩
    · exact ih hrest p hp

/-- The script is a file, so no directory is lost to it. -/
theorem keeps_of_writeScript {requestPath : String} {paths : List String}
    (h : writeScript requestPath directory paths files = (later, .ok ())) :
    files.KeepsDirectories later := by
  obtain ⟨written, hwrite, hexecution⟩ := writeScript_eq_ok.1 h
  exact (Files.keeps_of_write hwrite).trans (Files.keeps_of_allowExecution hexecution)

/-- Where writing some points may change a tree, seen from a working directory. -/
inductive Touches (home : List String) (directory results : String) (points : List Point)
    (place : List String) : Prop
  /-- on the way to the macros -/
  | directory (hway : Files.OnTheWay home directory place)
  /-- at a macro -/
  | macroFile (p : Point) (hp : p ∈ points)
    (hfile : Files.LeadsTo home (p.macroPath directory) place)
  /-- on the way to the results of a point -/
  | results (p : Point) (hp : p ∈ points)
    (hway : Files.OnTheWay home (Request.resultDirectory results p.stem) place)
  /-- at the script -/
  | script (hfile : Files.LeadsTo home (scriptPath directory) place)

namespace Request

variable {request : Request} {requestPath : String} {paths : List String}

/-- **A scan changes nothing but what its paths lead to or through,** also if it fails. -/
theorem get?_write (hpoints : request.points? results = some points)
    (hplace : ¬ Touches files.home directory results points place) :
    (request.write requestPath directory results files).1.get? place = files.get? place := by
  have hmade : (files.makeDirectories directory).1.get? place = files.get? place :=
    files.get?_makeDirectories fun hway => hplace (.directory hway)
  have hhome := (files.makeDirectories_extends directory).home
  unfold write
  generalize files.makeDirectories directory = making at hmade hhome ⊢
  obtain ⟨made, result⟩ := making
  cases result with
  | error e => exact hmade
  | ok =>
    simp only [hpoints]
    dsimp only at hhome
    -- making directories has not moved the working directory, so paths lead where they did
    rw [← hhome] at hplace
    have hwritten : (writePoints results directory points made).1.get? place = made.get? place :=
      get?_writePoints (fun p hp hway => hplace (.results p hp hway))
        fun p hp hfile => hplace (.macroFile p hp hfile)
    have hlater := (keeps_writePoints results directory points made).home
    generalize writePoints results directory points made = writing at hwritten hlater ⊢
    obtain ⟨written, result⟩ := writing
    cases result with
    | error e => exact hwritten.trans hmade
    | ok =>
      dsimp only at hlater
      rw [← hlater] at hplace
      exact (get?_writeScript fun hfile => hplace (.script hfile)).trans (hwritten.trans hmade)

end Request

/-! ## Places

For names without slashes the places can be told from the two directories alone. That is what was
meant: the macros in the one, and a directory for each point in the other. -/

/-- Where the files of a scan belong: on the ways to its two directories and directly in them. -/
inductive Belongs (home : List String) (directory results : String) (points : List Point)
    (place : List String) : Prop
  /-- on the way to the macros -/
  | directory (hway : Files.OnTheWay home directory place)
  /-- a macro -/
  | macroFile (p : Point) (hp : p ∈ points)
    (hin : Files.In home directory (p.stem ++ ".mac") place)
  /-- on the way to the results -/
  | results (hway : Files.OnTheWay home results place)
  /-- a directory with the name of a point -/
  | resultDirectory (p : Point) (hp : p ∈ points) (hin : Files.In home results p.stem place)
  /-- the script -/
  | script (hin : Files.In home directory "run_all.sh" place)

/-- The directory of a macro was there before, or it is made for another reason: on the way to the
macros, or on the way to the results of some point. -/
def HasDirectory (directory results : String) (points : List Point) (files : Files) (p : Point) :
    Prop :=
  ∃ above name, Files.LeadsTo files.home (p.macroPath directory) (above ++ [name]) ∧
    (files.get? above = some .directory ∨ Files.OnTheWay files.home directory above ∨
      ∃ q ∈ points, Files.OnTheWay files.home (Request.resultDirectory results q.stem) above)

/-- A point is where it belongs: there is a file for its macro, and a directory for its results. -/
structure Placed (directory results : String) (files : Files) (p : Point) : Prop where
  /-- the macro is directly in its directory -/
  macroFile : ∃ above text executable, files.directoryOf directory = .ok above ∧
    files.get? (above ++ [p.stem ++ ".mac"]) = some (.file text executable)
  /-- the directory of the results is directly in the other one -/
  resultDirectory : ∃ above, files.directoryOf results = .ok above ∧
    files.get? (above ++ [p.stem]) = some .directory

/-- The name of a point does not end in a dot, but in the unit of its thickness. -/
theorem Point.getLast?_stem (p : Point) : p.stem.toList.getLast? ≠ some '.' := by
  have hlast : p.stem.toList.getLast? = some 'm' := by
    rw [stem, stemOf, String.toList_append, List.getLast?_append]
    rfl
  rw [hlast]
  decide

/-- Names without slashes keep a scan where it belongs. Each of the four cases is a path of a single
name below its directory. -/
theorem Touches.belongs {home : List String} (hslash : ∀ p ∈ points, '/' ∉ p.targetName.toList)
    (h : Touches home directory results points place) :
    Belongs home directory results points place := by
  cases h with
  | directory hway => exact .directory hway
  | macroFile p hp hfile =>
    have hname := Point.isName_file (Point.isName_stem (hslash p hp))
    exact .macroFile p hp (Files.in_of_leadsTo hname (by simp) hfile)
  | results p hp hway =>
    have hname := Point.isName_stem (hslash p hp)
    obtain hway | hplace := Files.onTheWay_of_join hname hway
    · exact .results hway
    · exact .resultDirectory p hp (Files.in_of_leadsTo hname p.getLast?_stem hplace)
  | script hfile => exact .script (Files.in_of_leadsTo (by decide) (by decide) hfile)

namespace Request

variable {request : Request} {requestPath : String} {paths : List String}

/-- A scan that is written has made its directory and written its points and its script, one after
the other. -/
theorem exists_written (hpoints : request.points? results = some points)
    (h : request.write requestPath directory results files = (later, .ok paths)) :
    ∃ made written, files.makeDirectories directory = (made, .ok ()) ∧
      writePoints results directory points made = (written, .ok ()) ∧
      writeScript requestPath directory (points.map (Point.macroPath directory)) written =
        (later, .ok ()) ∧
      paths = points.map (Point.macroPath directory) := by
  obtain ⟨made, points', written, hmake, hpoints', hrest⟩ := write_eq_ok.1 h
  obtain rfl := Option.some.inj (hpoints.symm.trans hpoints')
  exact ⟨made, written, hmake, hrest⟩

/-- No directory is made for a macro. It was found when the macro was written, and only those for
the results were made before. -/
theorem hasDirectory_of_write (hpoints : request.points? results = some points)
    (h : request.write requestPath directory results files = (later, .ok paths)) :
    ∀ p ∈ points, HasDirectory directory results points files p := by
  intro p hp
  obtain ⟨made, written, hmake, hwrite, -⟩ := exists_written hpoints h
  obtain ⟨-, place, hlocate⟩ := directoryOf_of_writePoints hwrite p hp
  obtain ⟨names, last, above, -, hfollow, rfl⟩ := Files.exists_above_of_locate hlocate
  have hkeeps := keeps_of_writePoints hwrite
  have hextends := files.makeDirectories_extends directory
  rw [hmake] at hextends
  have hleads := Files.leadsTo_of_locate hlocate
  rw [hkeeps.home, hextends.home] at hleads
  refine ⟨above, last, hleads, ?_⟩
  have habove := Files.get?_of_follow (written.get?_start _) hfollow
  obtain hmade | ⟨q, hq, hway⟩ := directory_of_writePoints hwrite habove
  · by_cases hway : Files.OnTheWay files.home directory above
    · exact .inr (.inl hway)
    · have hfiles := files.get?_makeDirectories hway
      rw [hmake] at hfiles
      exact .inl (hfiles ▸ hmade)
  · rw [hextends.home] at hway
    exact .inr (.inr ⟨q, hq, hway⟩)

/-- Points whose names have no slash are where they belong, once they are written. Their macros are
there when all is done, since nothing that is written later removes a file. -/
theorem placed_of_write (hpoints : request.points? results = some points)
    (hslash : ∀ p ∈ points, '/' ∉ p.targetName.toList)
    (h : request.write requestPath directory results files = (later, .ok paths)) :
    ∀ p ∈ points, Placed directory results later p := by
  intro p hp
  have hnames : ∀ q ∈ points, Path.IsName q.stem := fun q hq => Point.isName_stem (hslash q hq)
  have hname := hnames p hp
  obtain ⟨made, written, -, hwrite, hscript, -⟩ := exists_written hpoints h
  constructor
  · obtain ⟨q, -, -, hread⟩ := exists_read_of_writeScript hnames hwrite hscript p hp
    obtain ⟨place, executable, hlocate, -, hfile⟩ := Files.read_eq_ok.1 hread
    obtain ⟨names, last, above, hpath, hfollow, rfl⟩ := Files.exists_above_of_locate hlocate
    rw [Point.macroPath, Path.names_join_name (Point.isName_file hname)] at hpath
    rw [Point.macroPath, Files.start_join (Point.isName_file hname)] at hfollow
    obtain ⟨rfl, hlast⟩ := List.append_inj' hpath rfl
    obtain rfl := List.singleton_inj.1 hlast
    exact ⟨above, _, executable, hfollow, hfile⟩
  · obtain ⟨⟨place, hplace⟩, -⟩ := directoryOf_of_writePoints hwrite p hp
    replace hplace := Files.directoryOf_of_keeps (keeps_of_writeScript hscript) hplace
    rw [Files.directoryOf, Request.resultDirectory, Files.start_join hname,
      Path.names_join_name hname, Files.follow_concat_eq_ok] at hplace
    obtain ⟨above, hfollow, henter⟩ := hplace
    obtain ⟨hstep, hdirectory⟩ := Files.enter_eq_ok.1 henter
    obtain ⟨hhere, habove⟩ := Files.ne_dots_of_getLast? p.getLast?_stem
    obtain rfl := Files.eq_of_step hstep hhere habove
    exact ⟨above, hfollow, hdirectory⟩

/-- What a point has of the request: its target, and a file in the directory of its own name. -/
theorem exists_target_of_mem (hpoints : request.points? results = some points) (hp : p ∈ points) :
    p.output = Path.join (resultDirectory results p.stem) "events.csv" ∧
      ∃ t ∈ request.targets, p.targetName = t.name := by
  obtain ⟨particle, -, rfl⟩ := Option.map_eq_some_iff.1 hpoints
  obtain ⟨t, ht, hp⟩ := List.mem_flatMap.1 hp
  obtain ⟨m, -, rfl⟩ := List.mem_map.1 hp
  exact ⟨rfl, t, ht, rfl⟩

/-- **Where the files of a scan are.** Of a valid request, the files of a point stay where they should
exactly if the name of its target has no slash; otherwise they are led away. No directory is made for a
macro. If no name has a slash, then nothing is changed but what belongs to the scan, and what was written
is where it belongs. -/
theorem files_stay_iff (hvalid : request.problems Catalog.standard = [])
    (requestPath directory results : String) (files : Files) :
    ∃ points, request.points? results = some points ∧
      (∀ p ∈ points, p.StaysIn directory results ↔ '/' ∉ p.targetName.toList) ∧
      (∀ p ∈ points, '/' ∈ p.targetName.toList →
        ∃ outer inner, p.LeadsAway directory results outer inner) ∧
      (∀ later paths, request.write requestPath directory results files = (later, .ok paths) →
        paths = points.map (Point.macroPath directory) ∧
          ∀ p ∈ points, HasDirectory directory results points files p) ∧
      ((∀ t ∈ request.targets, '/' ∉ t.name.toList) →
        (∀ place, ¬ Belongs files.home directory results points place →
          (request.write requestPath directory results files).1.get? place = files.get? place) ∧
        ∀ later paths, request.write requestPath directory results files = (later, .ok paths) →
          ∀ p ∈ points, Placed directory results later p) := by
  obtain ⟨particle, hparticle⟩ := (problems_eq_nil_iff.1 hvalid).exists_particle?
  obtain ⟨points, hpoints⟩ : ∃ points, request.points? results = some points :=
    ⟨_, by rw [points?, hparticle, Option.map_some]⟩
  refine ⟨points, hpoints, fun p hp => ?stays, fun p hp hslash => ?away, fun later paths h => ?made,
    fun hslash => ?kept⟩
  case stays => exact Point.staysIn_iff (exists_target_of_mem hpoints hp).1
  case away =>
    obtain ⟨outer, inner, hname, hlast⟩ := Path.exists_divided hslash
    exact ⟨outer, inner, Point.leadsAway (exists_target_of_mem hpoints hp).1 hname hlast⟩
  case made =>
    obtain ⟨made, written, -, -, -, hpaths⟩ := exists_written hpoints h
    exact ⟨hpaths, hasDirectory_of_write hpoints h⟩
  case kept =>
    have hnames : ∀ p ∈ points, '/' ∉ p.targetName.toList := by
      intro p hp
      obtain ⟨-, t, ht, hname⟩ := exists_target_of_mem hpoints hp
      rw [hname]
      exact hslash t ht
    refine ⟨fun place hplace => ?_, fun later paths h => placed_of_write hpoints hnames h⟩
    exact get?_write hpoints fun htouches => hplace (htouches.belongs hnames)

/-- One target has a name with a directory in it, the name of the other is an absolute path. -/
def strayRequest : Request where
  targets := [⟨"granite/polished", "Granite", 10.0⟩, ⟨"/granite", "Granite", 10.0⟩]
  beam := ⟨"e-", [2.0], 100⟩

/-- The request has no problems, and no file of it stays where it should. The directory for the first
results is made, but nobody makes the one for the first macro, so the scan ends there. The second results
would be at the root. -/
theorem files_stay_iff_stray :
    strayRequest.problems Catalog.standard = [] ∧
      (∃ points, strayRequest.points? "results" = some points ∧
        points.map Point.output =
          ["results/granite/polished_2GeV_10mm/events.csv", "/granite_2GeV_10mm/events.csv"] ∧
        ∀ p ∈ points, ¬ p.StaysIn "macros" "results") ∧
      ∃ later, strayRequest.write "request.yaml" "macros" "results" Files.empty =
          (later, .error (.macroFile "macros/granite/polished_2GeV_10mm.mac" .notFound)) ∧
        later.get? ["results", "granite", "polished_2GeV_10mm"] = some .directory := by
  have hvalid : strayRequest.problems Catalog.standard = [] := by
    rw [← List.isEmpty_iff]
    decide +kernel
  obtain ⟨points, hpoints, hstays, -⟩ :=
    files_stay_iff hvalid "request.yaml" "macros" "results" Files.empty
  have houtputs : (strayRequest.points? "results").map (List.map Point.output) =
      some ["results/granite/polished_2GeV_10mm/events.csv", "/granite_2GeV_10mm/events.csv"] := by
    decide +kernel
  rw [hpoints] at houtputs
  refine ⟨hvalid, ⟨points, hpoints, Option.some.inj houtputs, fun p hp h => ?_⟩, _,
    Prod.ext rfl ?_, ?_⟩
  · obtain ⟨-, t, ht, hname⟩ := exists_target_of_mem hpoints hp
    have hslash : ∀ t ∈ strayRequest.targets, '/' ∈ t.name.toList := by decide
    exact (hstays p hp).1 h (hname ▸ hslash t ht)
  · decide +kernel
  · decide +kernel

end Request

end Scan

end Telescope
