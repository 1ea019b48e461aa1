import Telescope.Proofs.FileLaws
import Telescope.Proofs.ScanNames
import Telescope.Proofs.ScanProduct

/-!
# Which macros of a scan are kept

Writing a scan is a list of writes, and nothing looks at what is already there. So the question is which
points of a scan share a file:

- A step writes one file (`writePoint_eq_ok`) and leaves files of other names alone
  (`read_of_writePoint`). By induction on the points, a file has in the end the macro of some point of its
  name (`exists_read_of_writePoints`).
- So every macro is kept exactly if points of one name have one macro (`forall_read_iff`).
- In a valid request the name of a point tells the name of its target, its thickness and the momentum
  (`Request.stem_point_inj`), but not the material. A list of all combinations has no repetitions exactly
  if neither side has any (`nodup_flatMap_map_iff`).

Together they say which requests are written without loss: not all that are valid.

The two directories may be relative or absolute, and the paths may lead through other directories,
as long as everything could be written. Whether two files are one is decided by their last names,
since all macros of a scan are in one directory.
-/

namespace Telescope.Scan

variable {results directory : String} {files later : Files} {points : List Point} {p : Point}

/-! ## Steps

The three operations are opened here. Each is a few operations on the files, of which none may fail. -/

/-- A point is written if the directory for its results is made and its macro is written. -/
theorem writePoint_eq_ok :
    writePoint results directory p files = (later, .ok ()) ↔
      ∃ made, files.makeDirectories (Request.resultDirectory results p.stem) = (made, .ok ()) ∧
        made.write (p.macroPath directory) p.macroText = .ok later := by
  unfold writePoint
  dsimp only
  obtain ⟨made, result⟩ := files.makeDirectories (Request.resultDirectory results p.stem)
  cases result with
  | error e => simp
  | ok =>
    dsimp only
    cases hwrite : made.write (p.macroPath directory) p.macroText with
    | error e => simp [hwrite]
    | ok written => simp [hwrite]

/-- Points are written one by one, each to the files that the one before has left. -/
theorem writePoints_cons_eq_ok :
    writePoints results directory (p :: points) files = (later, .ok ()) ↔
      ∃ written, writePoint results directory p files = (written, .ok ()) ∧
        writePoints results directory points written = (later, .ok ()) := by
  conv_lhs => unfold writePoints
  cases writePoint results directory p files with
  | mk written result => cases result <;> simp

/-- The script is written, and then made executable. -/
theorem writeScript_eq_ok {requestPath : String} {paths : List String} :
    writeScript requestPath directory paths files = (later, .ok ()) ↔
      ∃ written, files.write (scriptPath directory) (script requestPath paths) = .ok written ∧
        written.allowExecution (scriptPath directory) = .ok later := by
  unfold writeScript
  dsimp only
  cases files.write (scriptPath directory) (script requestPath paths) with
  | error e => simp
  | ok written =>
    dsimp only
    cases hexecution : written.allowExecution (scriptPath directory) with
    | error e => simp [hexecution]
    | ok executable => simp [hexecution]

/-- A scan is written if its directory is made, its points are written and then its script. What it
returns are the paths of the macros, in the order of the points. -/
theorem Request.write_eq_ok {request : Request} {requestPath : String} {paths : List String} :
    request.write requestPath directory results files = (later, .ok paths) ↔
      ∃ made points written, files.makeDirectories directory = (made, .ok ()) ∧
        request.points? results = some points ∧
        writePoints results directory points made = (written, .ok ()) ∧
        writeScript requestPath directory (points.map (Point.macroPath directory)) written =
          (later, .ok ()) ∧ paths = points.map (Point.macroPath directory) := by
  unfold Request.write
  obtain ⟨made, result⟩ := files.makeDirectories directory
  cases result with
  | error e => simp
  | ok =>
    cases request.points? results with
    | none => simp
    | some points =>
      dsimp only
      cases hpoints : writePoints results directory points made with
      | mk written result =>
        cases result with
        | error e => simp [hpoints]
        | ok =>
          dsimp only
          cases hscript : writeScript requestPath directory
            (points.map (Point.macroPath directory)) written with
          | mk last result => cases result <;> simp [hpoints, hscript, Except.map, eq_comm]

/-! ## Runs

A file that is written twice has the later text. So the induction goes over the points with the
question which of them was the last to write a file. -/

/-- Writing a point leaves files of other names as they are. -/
theorem read_of_writePoint {path text : String}
    (h : writePoint results directory p files = (later, .ok ())) (hp : Path.IsName p.stem)
    (hpath : (Path.names path).getLast? ≠ some (p.stem ++ ".mac"))
    (hread : files.read path = .ok text) : later.read path = .ok text := by
  obtain ⟨made, hmake, hwrite⟩ := writePoint_eq_ok.1 h
  have hextends := files.makeDirectories_extends (Request.resultDirectory results p.stem)
  rw [hmake] at hextends
  refine Files.read_of_write_elsewhere hwrite ?_ (Files.read_of_extends hextends hread)
  rwa [Point.getLast?_macroPath hp]

/-- So does writing points, none of which has the name of the file. -/
theorem read_of_writePoints {path text : String} (hpoints : ∀ p ∈ points, Path.IsName p.stem)
    (h : writePoints results directory points files = (later, .ok ()))
    (hpath : ∀ p ∈ points, (Path.names path).getLast? ≠ some (p.stem ++ ".mac"))
    (hread : files.read path = .ok text) : later.read path = .ok text := by
  induction points generalizing files with
  | nil =>
    obtain ⟨rfl, -⟩ := Prod.mk.inj h
    exact hread
  | cons p points ih =>
    obtain ⟨hp, hpoints⟩ := List.forall_mem_cons.1 hpoints
    obtain ⟨hfirst, hpath⟩ := List.forall_mem_cons.1 hpath
    obtain ⟨written, hpoint, hrest⟩ := writePoints_cons_eq_ok.1 h
    exact ih hpoints hrest hpath (read_of_writePoint hpoint hp hfirst hread)

/-- **The macro of a point is that of a point of the same name,** the last one that was written.
Later points have other names and leave it alone. -/
theorem exists_read_of_writePoints (hpoints : ∀ p ∈ points, Path.IsName p.stem)
    (h : writePoints results directory points files = (later, .ok ())) :
    ∀ p ∈ points, ∃ q ∈ points, q.stem = p.stem ∧
      later.read (p.macroPath directory) = .ok q.macroText := by
  induction points generalizing files with
  | nil => exact nofun
  | cons first points ih =>
    obtain ⟨hfirst, hrest⟩ := List.forall_mem_cons.1 hpoints
    obtain ⟨written, hpoint, hwrite⟩ := writePoints_cons_eq_ok.1 h
    intro p hp
    have hname : Path.IsName p.stem := hpoints p hp
    by_cases hlater : ∃ q ∈ points, q.stem = p.stem
    · -- the file is written again with a later point of this name
      obtain ⟨q, hq, hsame⟩ := hlater
      obtain ⟨r, hr, hstem, hread⟩ := ih hrest hwrite q hq
      have hpath : p.macroPath directory = q.macroPath directory :=
        (Point.macroPath_inj hname (hrest q hq)).2 hsame.symm
      exact ⟨r, List.mem_cons_of_mem _ hr, hstem.trans hsame, by rw [hpath, hread]⟩
    · obtain rfl | hp := List.mem_cons.1 hp
      · obtain ⟨made, -, hmacro⟩ := writePoint_eq_ok.1 hpoint
        refine ⟨p, List.mem_cons_self, rfl, read_of_writePoints hrest hwrite ?_
          (Files.read_of_write hmacro)⟩
        intro q hq hlast
        rw [Point.getLast?_macroPath hname, Option.some_inj, String.append_left_inj] at hlast
        exact hlater ⟨q, hq, hlast.symm⟩
      · exact absurd ⟨p, hp, rfl⟩ hlater

/-- The script has one name in every scan. -/
theorem getLast?_scriptPath (directory : String) :
    (Path.names (scriptPath directory)).getLast? = some "run_all.sh" :=
  Path.getLast?_names_join (by decide) directory

/-- No macro has the name of the script, since the two endings differ. -/
theorem macro_ne_script (stem : String) : stem ++ ".mac" ≠ "run_all.sh" := by
  intro h
  have hlast := congrArg (fun name : String => name.toList.getLast?) h
  simp at hlast

/-- After the script, too, the macro of a point is that of a point of the same name. The script has
a name of its own, and leaves all macros alone. -/
theorem exists_read_of_writeScript (hpoints : ∀ p ∈ points, Path.IsName p.stem)
    {made written : Files} {requestPath : String}
    (hwrite : writePoints results directory points made = (written, .ok ()))
    (hscript : writeScript requestPath directory (points.map (Point.macroPath directory)) written =
      (later, .ok ())) :
    ∀ p ∈ points, ∃ q ∈ points, q.stem = p.stem ∧
      later.read (p.macroPath directory) = .ok q.macroText := by
  obtain ⟨scripted, hscripted, hexecution⟩ := writeScript_eq_ok.1 hscript
  intro p hp
  obtain ⟨q, hq, hstem, hread⟩ := exists_read_of_writePoints hpoints hwrite p hp
  refine ⟨q, hq, hstem, Files.read_of_allowExecution hexecution
    (Files.read_of_write_elsewhere hscripted ?_ hread)⟩
  rw [Point.getLast?_macroPath (hpoints p hp), getLast?_scriptPath, Ne, Option.some_inj]
  exact macro_ne_script p.stem

/-- **The files of a scan:** where points of one name have one macro, every macro is kept, and
conversely. -/
theorem forall_read_iff (hpoints : ∀ p ∈ points, Path.IsName p.stem)
    {made written : Files} {requestPath : String}
    (hwrite : writePoints results directory points made = (written, .ok ()))
    (hscript : writeScript requestPath directory (points.map (Point.macroPath directory)) written =
      (later, .ok ())) :
    (∀ p ∈ points, later.read (p.macroPath directory) = .ok p.macroText) ↔
      ∀ p ∈ points, ∀ q ∈ points, p.stem = q.stem → p.macroText = q.macroText := by
  have hread := exists_read_of_writeScript hpoints hwrite hscript
  constructor
  · intro hkept p hp q hq hsame
    have hpath : p.macroPath directory = q.macroPath directory :=
      (Point.macroPath_inj (hpoints p hp) (hpoints q hq)).2 hsame
    have hfile := hkept p hp
    rw [hpath, hkept q hq] at hfile
    exact (Except.ok.inj hfile).symm
  · intro hsame p hp
    obtain ⟨q, hq, hstem, hread⟩ := hread p hp
    rw [hread, hsame q hq p hp hstem]

/-! ## Points

The points of a scan are all combinations of a target and a momentum. What their names tell is told
by what the targets and momenta are made of. -/

/-- Two lists are combined to a list without repetitions only if none has any, as far as the results
tell. Both have to have an entry: beside an empty list the other could repeat itself unseen. -/
theorem nodup_flatMap_map_iff {α β γ κ : Type} {xs : List α} {ys : List β} (hxs : xs ≠ [])
    (hys : ys ≠ []) {make : α → β → γ} {key : α → κ}
    (hmake : ∀ x ∈ xs, ∀ x' ∈ xs, ∀ y ∈ ys, ∀ y' ∈ ys,
      make x y = make x' y' ↔ key x = key x' ∧ y = y') :
    (xs.flatMap fun x => ys.map (make x)).Nodup ↔ (xs.map key).Nodup ∧ ys.Nodup := by
  obtain ⟨y₀, hy₀⟩ := List.exists_mem_of_ne_nil ys hys
  have hrow : ∀ x ∈ xs, (ys.map (make x)).Nodup ↔ ys.Nodup := by
    intro x hx
    refine ⟨fun h => h.of_map, fun h => h.map_on fun y hy y' hy' heq => ?_⟩
    exact ((hmake x hx x hx y hy y' hy').1 heq).2
  have hrows : (xs.map key).Nodup ↔
      xs.Pairwise fun x x' => (ys.map (make x)).Disjoint (ys.map (make x')) := by
    rw [List.Nodup, List.pairwise_map]
    refine List.Pairwise.iff_of_mem fun {x x'} hx hx' => ⟨fun hne => ?_, fun hdisjoint heq => ?_⟩
    · intro z hz hz'
      obtain ⟨y, hy, rfl⟩ := List.mem_map.1 hz
      obtain ⟨y', hy', heq⟩ := List.mem_map.1 hz'
      exact hne ((hmake x hx x' hx' y hy y' hy').1 heq.symm).1
    · have hsame := (hmake x hx x' hx' y₀ hy₀ y₀ hy₀).2 ⟨heq, rfl⟩
      exact hdisjoint (List.mem_map_of_mem hy₀) (hsame ▸ List.mem_map_of_mem hy₀)
  rw [List.nodup_flatMap, hrows, and_comm]
  refine and_congr_right fun _ => ?_
  obtain ⟨x₀, hx₀⟩ := List.exists_mem_of_ne_nil xs hxs
  exact ⟨fun h => (hrow x₀ hx₀).1 (h x₀ hx₀), fun h x hx => (hrow x hx).2 h⟩

namespace Request

variable {request : Request} {particle : Particle} {t u : Target} {m n : Float}

/-- No target has the name and the thickness of another, and no momentum stands twice. -/
def Distinct (request : Request) : Prop :=
  (request.targets.map fun t => (t.name, t.thickness)).Nodup ∧ request.beam.momenta.Nodup

/-- In a valid request the name of a point tells the target's name, its thickness and the momentum. -/
theorem stem_point_inj (hvalid : request.problems Catalog.standard = []) (ht : t ∈ request.targets)
    (hu : u ∈ request.targets) (hm : m ∈ request.beam.momenta) (hn : n ∈ request.beam.momenta) :
    (request.point particle results t m).stem = (request.point particle results u n).stem ↔
      (t.name, t.thickness) = (u.name, u.thickness) ∧ m = n := by
  have hsound := problems_eq_nil_iff.1 hvalid
  have hstem : Point.stemOf t.name m t.thickness = Point.stemOf u.name n u.thickness ↔
      t.name = u.name ∧ m = n ∧ t.thickness = u.thickness :=
    Point.stemOf_inj (hsound.momentum m hm) (hsound.momentum n hn) (hsound.thickness t ht)
      (hsound.thickness u hu)
  rw [Prod.mk.injEq]
  exact hstem.trans ⟨fun ⟨hname, hp, hthickness⟩ => ⟨⟨hname, hthickness⟩, hp⟩,
    fun ⟨⟨hname, hthickness⟩, hp⟩ => ⟨hname, hp, hthickness⟩⟩

/-- Points of one name have one macro exactly if they have one material. Everything else in the text
of the macro is in the name, or the same for the whole scan. -/
theorem forall_macroText_iff (hvalid : request.problems Catalog.standard = []) :
    let points := request.targets.flatMap fun t =>
      request.beam.momenta.map (request.point particle results t)
    (∀ p ∈ points, ∀ q ∈ points, p.stem = q.stem → p.macroText = q.macroText) ↔
      ∀ t ∈ request.targets, ∀ u ∈ request.targets, t.name = u.name → t.thickness = u.thickness →
        t.material = u.material := by
  intro points
  have hmem : ∀ {t m}, t ∈ request.targets → m ∈ request.beam.momenta →
      request.point particle results t m ∈ points :=
    fun ht hm => List.mem_flatMap.2 ⟨_, ht, List.mem_map_of_mem hm⟩
  have hline : ∀ t ∈ request.targets, '\n' ∉ t.material.toList := by
    intro t ht hfeed
    exact absurd ((target_of_valid hvalid ht).1.blankFree _ hfeed) (by decide)
  constructor
  · intro hsame t ht u hu hname hthickness
    -- any momentum will do, and a valid request has one
    obtain ⟨m, hm⟩ := List.exists_mem_of_ne_nil _ (problems_eq_nil_iff.1 hvalid).momenta
    have hstem : (request.point particle results t m).stem =
        (request.point particle results u m).stem :=
      (stem_point_inj hvalid ht hu hm hm).2 ⟨by rw [hname, hthickness], rfl⟩
    exact Point.material_of_macroText hname (hline t ht) (hline u hu)
      (hsame _ (hmem ht hm) _ (hmem hu hm) hstem)
  · intro hsame p hp q hq hstem
    obtain ⟨t, ht, hp⟩ := List.mem_flatMap.1 hp
    obtain ⟨m, hm, rfl⟩ := List.mem_map.1 hp
    obtain ⟨u, hu, hq⟩ := List.mem_flatMap.1 hq
    obtain ⟨n, hn, rfl⟩ := List.mem_map.1 hq
    obtain ⟨hkey, rfl⟩ := (stem_point_inj hvalid ht hu hm hn).1 hstem
    obtain ⟨hname, hthickness⟩ := Prod.mk.inj hkey
    obtain rfl : t = u := by
      have hmaterial := hsame t ht u hu hname hthickness
      obtain ⟨name, material, thickness⟩ := t
      obtain ⟨name', material', thickness'⟩ := u
      subst hname hthickness hmaterial
      rfl
    rfl

/-- **When a scan keeps its points apart.** A valid request is written, and the names of its targets
have no slashes. Then there is a path for every point. The paths of the macros are distinct if and only if
no target has the name and the thickness of another and no momentum stands twice, and so are the files of
the results. Every file still has the macro of its point if and only if targets with the same name and
thickness are made of the same material. -/
theorem write_keeps_iff {request : Request} (hvalid : request.problems Catalog.standard = [])
    (hslash : ∀ t ∈ request.targets, '/' ∉ t.name.toList) {requestPath directory results : String}
    {files later : Files} {paths : List String}
    (hwrite : request.write requestPath directory results files = (later, .ok paths)) :
    ∃ points, request.points? results = some points ∧
      paths = points.map (Point.macroPath directory) ∧
      paths.length = request.targets.length * request.beam.momenta.length ∧
      (paths.Nodup ↔ request.Distinct) ∧
      ((points.map Point.output).Nodup ↔ request.Distinct) ∧
      ((∀ p ∈ points, later.read (p.macroPath directory) = .ok p.macroText) ↔
        ∀ t ∈ request.targets, ∀ u ∈ request.targets, t.name = u.name → t.thickness = u.thickness →
          t.material = u.material) := by
  obtain ⟨made, points, written, -, hsome, hpoints, hscript, rfl⟩ := write_eq_ok.1 hwrite
  have hsound := problems_eq_nil_iff.1 hvalid
  have hlength := length_points? hsome
  obtain ⟨particle, -, rfl⟩ := Option.map_eq_some_iff.1 hsome
  have hname : ∀ t ∈ request.targets, ∀ m,
      Path.IsName (request.point particle results t m).stem :=
    fun t ht m => Point.isName_stem (hslash t ht)
  have hnames : ∀ p ∈ request.targets.flatMap fun t =>
      request.beam.momenta.map (request.point particle results t), Path.IsName p.stem := by
    intro p hp
    obtain ⟨t, ht, hp⟩ := List.mem_flatMap.1 hp
    obtain ⟨m, -, rfl⟩ := List.mem_map.1 hp
    exact hname t ht m
  refine ⟨_, hsome, rfl, by rw [List.length_map, hlength], ?_, ?_, ?_⟩
  · rw [List.map_flatMap]
    simp only [List.map_map]
    refine nodup_flatMap_map_iff hsound.targets hsound.momenta fun t ht u hu m hm n hn => ?_
    rw [Function.comp_apply, Function.comp_apply,
      Point.macroPath_inj (hname t ht m) (hname u hu n), stem_point_inj hvalid ht hu hm hn]
  · rw [List.map_flatMap]
    simp only [List.map_map]
    refine nodup_flatMap_map_iff hsound.targets hsound.momenta fun t ht u hu m hm n hn => ?_
    rw [Function.comp_apply, Function.comp_apply, output_point, output_point,
      Point.output_inj (hname t ht m) (hname u hu n), stem_point_inj hvalid ht hu hm hn]
  · exact (forall_read_iff hnames hpoints hscript).trans (forall_macroText_iff hvalid)

/-- Two targets with one name and one thickness, but of different materials. -/
def slabRequest : Request where
  targets := [⟨"slab", "Granite", 10.0⟩, ⟨"slab", "G4_Si", 10.0⟩]
  beam := ⟨"e-", [2.0], 100⟩

/-- The request has no problems and is written, but its two macros have one path, and its two points one
file for their results. The macro of one of the points is lost. -/
theorem write_keeps_iff_slab :
    slabRequest.problems Catalog.standard = [] ∧
      ∃ later paths points, slabRequest.write "request.yaml" "macros" "results" Files.empty =
          (later, .ok paths) ∧
        slabRequest.points? "results" = some points ∧ paths.length = 2 ∧ ¬ paths.Nodup ∧
        ¬ (points.map Point.output).Nodup ∧
        ¬ ∀ p ∈ points, later.read (p.macroPath "macros") = .ok p.macroText := by
  have hvalid : slabRequest.problems Catalog.standard = [] := by
    rw [← List.isEmpty_iff]
    decide +kernel
  have hslash : ∀ t ∈ slabRequest.targets, '/' ∉ t.name.toList := by decide
  have hresult : (slabRequest.write "request.yaml" "macros" "results" Files.empty).2 =
      .ok ["macros/slab_2GeV_10mm.mac", "macros/slab_2GeV_10mm.mac"] := by
    decide +kernel
  obtain ⟨points, hpoints, -, hlength, hpaths, houtputs, hkept⟩ :=
    write_keeps_iff hvalid hslash (Prod.ext rfl hresult)
  have hdistinct : ¬ slabRequest.Distinct := fun h => absurd h.1 (by decide)
  refine ⟨hvalid, _, _, points, Prod.ext rfl hresult, hpoints, hlength,
    fun h => hdistinct (hpaths.1 h), fun h => hdistinct (houtputs.1 h), fun h => ?_⟩
  have hmaterial : "Granite" = "G4_Si" := hkept.1 h _ List.mem_cons_self _
    (List.mem_cons_of_mem _ List.mem_cons_self) rfl rfl
  exact absurd hmaterial (by decide)

end Request

end Telescope.Scan
