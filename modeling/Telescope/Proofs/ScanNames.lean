import Telescope.Proofs.DecimalReading
import Telescope.Proofs.MacroRoundTrip
import Telescope.Proofs.PathNames
import Telescope.Scan.Write

/-!
# The names of the files of a scan

The name of a point is made of the name of its target and of two numbers. It can be read back from its
end (`Point.ofStem?`), whatever the target is called: no number has an underscore in its text, so the two
last underscores are those that were put there, and the text of a positive number is read as this number
(`Point.ofStem?_stemOf`). So nothing is lost in it (`Point.stemOf_inj`).

A name without slashes is the last name of a path that it is joined to, and what is joined to one
directory is told apart as before; so the files of points with different names are different
(`Point.macroPath_inj`, `Point.output_inj`).

The name is read from its end because the front is free: a target may be called like the name of a
point. What the name of a target may not have for this is nothing. A slash, however, makes a path of
the name, and then the laws of paths ask more.
-/

namespace Telescope

/-- A text divided where a mark stands for the last time. The mark is in neither part. -/
def cutLast? (mark : Char) (text : List Char) : Option (List Char × List Char) :=
  match text.reverse.dropWhile (· != mark) with
  | [] => none
  | _ :: front => some (front.reverse, (text.reverse.takeWhile (· != mark)).reverse)

/-- What follows the last mark has none in it, so a text is divided there and nowhere else. -/
theorem cutLast?_append_cons {mark : Char} {ys : List Char} (h : mark ∉ ys) (xs : List Char) :
    cutLast? mark (xs ++ mark :: ys) = some (xs, ys) := by
  have hrun : ∀ c ∈ ys.reverse, (c != mark) = true := by
    intro c hc
    rw [bne_iff_ne]
    rintro rfl
    exact h (List.mem_reverse.1 hc)
  have hreverse : (xs ++ mark :: ys).reverse = ys.reverse ++ mark :: xs.reverse := by simp
  unfold cutLast?
  rw [hreverse, List.dropWhile_append_of_pos hrun, List.takeWhile_append_of_pos hrun,
    List.dropWhile_cons_of_neg (by simp), List.takeWhile_cons_of_neg (by simp)]
  simp

/-- The number in front of a unit. -/
def quantity? (unit text : List Char) : Option Float :=
  if unit.isSuffixOf text then readFloat? (text.take (text.length - unit.length)) else none

/-- A positive number with a unit is read back. The unit is taken off by its length, so it may look
like a part of the number. -/
theorem quantity?_append {x : Float} (h : 0.0 < x) (unit : List Char) :
    quantity? unit (NumberStyle.plain.chars x ++ unit) = some x := by
  have hread := readFloat?_plain_of_pos h
  rw [NumberStyle.write, String.toList_ofList] at hread
  have hsuffix : unit.isSuffixOf (NumberStyle.plain.chars x ++ unit) = true :=
    List.isSuffixOf_iff_suffix.2 (List.suffix_append _ _)
  rw [quantity?, if_pos hsuffix, List.length_append, Nat.add_sub_cancel, List.take_left, hread]

namespace Scan.Point

/-- The name of a target, a momentum and a thickness that the name of a point is made of. -/
def ofStem? (stem : String) : Option (String × Float × Float) := do
  let (front, thickness) ← cutLast? '_' stem.toList
  let (name, momentum) ← cutLast? '_' front
  return (String.ofList name, ← quantity? ['G', 'e', 'V'] momentum, ← quantity? ['m', 'm'] thickness)

/-- The characters of a name, in the order in which they are taken apart again. -/
theorem toList_stemOf (name : String) (momentum thickness : Float) :
    (stemOf name momentum thickness).toList =
      (name.toList ++ '_' :: (NumberStyle.plain.chars momentum ++ ['G', 'e', 'V'])) ++
        '_' :: (NumberStyle.plain.chars thickness ++ ['m', 'm']) := by
  simp [stemOf, NumberStyle.write]

/-- **The name of a point is read back.** Neither of the numbers has an underscore in it, so the
name is cut at the two that were put there. -/
theorem ofStem?_stemOf {momentum thickness : Float} (hmomentum : 0.0 < momentum)
    (hthickness : 0.0 < thickness) (name : String) :
    ofStem? (stemOf name momentum thickness) = some (name, momentum, thickness) := by
  have hscore : ∀ (x : Float) (unit : List Char), '_' ∉ unit →
      '_' ∉ NumberStyle.plain.chars x ++ unit := by
    intro x unit hunit
    rw [List.mem_append, not_or]
    exact ⟨(NumberStyle.plain.numeric_chars x).not_mem (by decide), hunit⟩
  have hthick := cutLast?_append_cons (hscore thickness ['m', 'm'] (by decide))
    (name.toList ++ '_' :: (NumberStyle.plain.chars momentum ++ ['G', 'e', 'V']))
  have hfast := cutLast?_append_cons (hscore momentum ['G', 'e', 'V'] (by decide)) name.toList
  simp only [ofStem?, toList_stemOf, hthick, hfast, quantity?_append hmomentum,
    quantity?_append hthickness, String.ofList_toList, Option.bind_eq_bind, Option.bind_some,
    Option.pure_def]

/-- **The name of a point tells** its target, its momentum and its thickness, since all three are
read back from it. -/
theorem stemOf_inj {name name' : String} {momentum momentum' thickness thickness' : Float}
    (hmomentum : 0.0 < momentum) (hmomentum' : 0.0 < momentum') (hthickness : 0.0 < thickness)
    (hthickness' : 0.0 < thickness') :
    stemOf name momentum thickness = stemOf name' momentum' thickness' ↔
      name = name' ∧ momentum = momentum' ∧ thickness = thickness' := by
  refine ⟨fun h => ?_, fun ⟨hname, hp, ht⟩ => by rw [hname, hp, ht]⟩
  have hparts := congrArg ofStem? h
  rw [ofStem?_stemOf hmomentum hthickness, ofStem?_stemOf hmomentum' hthickness',
    Option.some_inj, Prod.mk.injEq, Prod.mk.injEq] at hparts
  exact hparts

/-- **The name of a point is an unambiguous code.** It is read back from its end, and so two points
have one name exactly if their targets have one name and they agree in momentum and thickness. The numbers
are positive, or infinite; the names of the targets may be any texts, also such as look like the end of
the name of a point. -/
theorem stem_read_back {p q : Point} (hp : 0.0 < p.momentum) (hp' : 0.0 < p.thickness)
    (hq : 0.0 < q.momentum) (hq' : 0.0 < q.thickness) :
    ofStem? p.stem = some (p.targetName, p.momentum, p.thickness) ∧
      (p.stem = q.stem ↔
        p.targetName = q.targetName ∧ p.momentum = q.momentum ∧ p.thickness = q.thickness) :=
  ⟨ofStem?_stemOf hp hp' p.targetName, stemOf_inj hp hq hp' hq'⟩

/-- Two targets of infinite thickness, one of which is called like a point with the other. -/
theorem stem_read_back_imitated :
    let p : Point := ⟨"slab", "Granite", 1.0 / 0.0, 2.0, .electron, 100, "a.csv"⟩
    let q : Point := ⟨"slab_2GeV_infmm", "Granite", 1.0 / 0.0, 2.0, .electron, 100, "b.csv"⟩
    p.stem = q.targetName ∧ p.stem ≠ q.stem ∧
      ofStem? q.stem = some ("slab_2GeV_infmm", 2.0, 1.0 / 0.0) := by
  intro p q
  have hmomentum : (0.0 : Float) < 2.0 := by decide +kernel
  have hthickness : (0.0 : Float) < 1.0 / 0.0 := by decide +kernel
  have hstem : p.stem = q.targetName := by decide +kernel
  obtain ⟨hread, hsame⟩ :=
    @stem_read_back q p hmomentum hthickness hmomentum hthickness
  refine ⟨hstem, fun heq => ?_, hread⟩
  exact absurd (hsame.1 heq.symm).1 (by decide)

/-- The name of a point has a slash only if the name of its target has one. -/
theorem slash_mem_stemOf {name : String} {momentum thickness : Float} :
    '/' ∈ (stemOf name momentum thickness).toList ↔ '/' ∈ name.toList := by
  have hmomentum : '/' ∉ NumberStyle.plain.chars momentum :=
    (NumberStyle.plain.numeric_chars momentum).not_mem (by decide)
  have hthickness : '/' ∉ NumberStyle.plain.chars thickness :=
    (NumberStyle.plain.numeric_chars thickness).not_mem (by decide)
  rw [toList_stemOf]
  simp [hmomentum, hthickness]

/-- The results of a point are in a directory with the name of the point. -/
theorem names_output {stem : String} (h : Path.IsName stem) (results : String) :
    Path.names (Path.join (Path.join results stem) "events.csv") =
      Path.names results ++ [stem, "events.csv"] := by
  rw [Path.names_join_name (by decide), Path.names_join_name h]
  exact List.append_assoc ..

/-- So the results of points with different names are in different directories. -/
theorem output_inj {results stem stem' : String} (h : Path.IsName stem) (h' : Path.IsName stem') :
    Path.join (Path.join results stem) "events.csv" =
      Path.join (Path.join results stem') "events.csv" ↔ stem = stem' := by
  refine ⟨fun heq => ?_, fun heq => by rw [heq]⟩
  have hnames := congrArg Path.names heq
  rw [names_output h, names_output h', List.append_cancel_left_eq, List.cons.injEq] at hnames
  exact hnames.1

/-- The name of a point is a name, if that of its target has no slash. -/
theorem isName_stemOf {name : String} {momentum thickness : Float} (h : '/' ∉ name.toList) :
    Path.IsName (stemOf name momentum thickness) where
  ne_nil := by
    rw [toList_stemOf]
    exact List.append_ne_nil_of_right_ne_nil _ (List.cons_ne_nil _ _)
  slash := fun hmem => h (slash_mem_stemOf.1 hmem)

variable {p q : Point}

/-- The same of a point that is given. -/
theorem isName_stem (h : '/' ∉ p.targetName.toList) : Path.IsName p.stem :=
  isName_stemOf h

/-- The file of a macro, too, has the name of the point. -/
theorem isName_file {stem : String} (h : Path.IsName stem) : Path.IsName (stem ++ ".mac") where
  ne_nil := by simp [h.ne_nil]
  slash := by simp [h.slash]

/-- The macro of a point has the name of the point and the ending for macros. -/
theorem getLast?_macroPath (h : Path.IsName p.stem) (directory : String) :
    (Path.names (p.macroPath directory)).getLast? = some (p.stem ++ ".mac") :=
  Path.getLast?_names_join (isName_file h) directory

/-- Macros in one directory have one path exactly if the names of their points are one. -/
theorem macroPath_inj {directory : String} (hp : Path.IsName p.stem) (hq : Path.IsName q.stem) :
    p.macroPath directory = q.macroPath directory ↔ p.stem = q.stem := by
  rw [macroPath, macroPath, Path.join_inj (isName_file hp) (isName_file hq), ← String.toList_inj,
    String.toList_append, String.toList_append, List.append_cancel_right_eq, String.toList_inj]

/-- The second line of a macro names the target and the material. Only this line has the material,
and it is how macros of different materials differ. -/
theorem macroText_eq (p : Point) :
    ∃ rest, p.macroText.toList =
      ("# Auto-generated BeamScan macro\n# Material: " ++ p.targetName ++ " (").toList ++
        ((p.material ++ ")").toList ++ '\n' :: rest) := by
  refine ⟨((p.macroLines.drop 2).map String.toList).flatMap fun line => line ++ ['\n'], ?_⟩
  rw [toList_macroText, macroLines]
  simp

/-- Points at one target have one macro only if the material is the same. A name with a line feed
could imitate what follows, so it is excluded; the catalog has no such name. -/
theorem material_of_macroText (hname : p.targetName = q.targetName)
    (hp : '\n' ∉ p.material.toList) (hq : '\n' ∉ q.material.toList)
    (h : p.macroText = q.macroText) : p.material = q.material := by
  obtain ⟨rest, hrest⟩ := p.macroText_eq
  obtain ⟨rest', hrest'⟩ := q.macroText_eq
  rw [h, hrest', hname, List.append_cancel_left_eq] at hrest
  -- the line ends at the first line feed, since there is none in the name of a material
  have hline : ∀ {material : String} {rest : List Char}, '\n' ∉ material.toList →
      ((material ++ ")").toList ++ '\n' :: rest).takeWhile (· != '\n') = (material ++ ")").toList := by
    intro material rest hmaterial
    have hnone : ∀ c ∈ (material ++ ")").toList, (c != '\n') = true := by
      intro c hc
      rw [bne_iff_ne]
      rintro rfl
      exact absurd hc (by simp [hmaterial])
    rw [List.takeWhile_append_of_pos hnone, List.takeWhile_cons_of_neg (by simp), List.append_nil]
  have hsame := congrArg (List.takeWhile (· != '\n')) hrest
  rw [hline hq, hline hp, String.toList_append, String.toList_append,
    List.append_cancel_right_eq] at hsame
  exact (String.toList_inj.1 hsame).symm

end Scan.Point

end Telescope
