import Telescope.Proofs.ComposedScripts
import Telescope.Proofs.DecimalReading
import Telescope.Proofs.FixedReading
import Telescope.Proofs.RequestProblems
import Telescope.Scan.Point

/-!
# Macros reproduce their requests

A scan writes a macro for each of its points, and a run reads it back. The writer and the reader are
separate, and a request without problems can still ask for what a macro cannot hold. This module
says when the plan that is read is the one that was asked for (`Request.macro_fulfils_iff`):

* the name of the target has no blanks, since the name of the file is a single word of its line, and
  a line feed in it would even start a line of its own;
* the thickness is finite, since an infinite one has no problems but is no number of a macro;
* the kinetic energy is finite and above half a millionth of an MeV, since it is written with six
  decimal places.

`Point.mapM_macroLines` goes through the lines of a macro and leaves the two of them that may be
refused; `Point.Legible.read_eq_ok` says what these two need.

The first two conditions are about the target, and the checks of a request look at both of its
fields; but they ask only that the name is not blank and that the thickness is above zero. The third
is about a number that the request does not have: the energy is computed from the momentum and the
mass.
-/

namespace Telescope.Scan

open Text (BlankFree IsWord unwords blankFree_append blankFree_cons)
open Script (commandOf commandOf_unwords commandOf_comment commandsFrom_eq_ok)
open Command (IsPositive)

namespace Point

/-! ## The lines

A macro has 24 lines. Those that do not depend on the point are read by evaluation, and the others
by a law for lines of words. -/

/-- The commands of the lines of a macro. The reader has a say in two of them, that for the thickness
and that for the energy. -/
def lineCommands (p : Point) (thickness energy : Command) : List (Option Command) :=
  [none, none, none, none, none, none,
    some .verbosity, some .verbosity, some .verbosity, some .verbosity, none,
    some (.targetMaterial p.material), some thickness, none,
    some .prepare, none,
    some (.gunParticle p.particle), some energy,
    some (.gunDirection ⟨0.0, 0.0, 1.0⟩),
    some (.gunPosition ((⟨0.0, 0.0, -80.0⟩ : Vector3).scale Unit.cm)), none,
    some (.outputFile p.output), none,
    some (.beamOn p.events)]

/-- The text of a macro is its lines with a line feed behind each. -/
theorem toList_macroText (p : Point) :
    p.macroText.toList = (p.macroLines.map String.toList).flatMap fun line => line ++ ['\n'] := by
  rw [macroText, String.toList_join, List.flatMap_map, List.flatMap_map]
  simp

variable {p : Point}

/-! ### Words -/

/-- A number is one word of its line. -/
theorem isWord_write (style : NumberStyle) (x : Float) : IsWord (style.write x).toList := by
  rw [NumberStyle.write, String.toList_ofList]
  exact style.isWord_chars x

/-- Also if it has fixed places. -/
theorem isWord_writeFixed (places : Nat) (x : Float) : IsWord (Fixed.write places x).toList := by
  rw [Fixed.write, String.toList_ofList]
  exact Fixed.isWord_chars places x

/-- The name of a species is one. -/
theorem isWord_particle (particle : Particle) : IsWord particle.name.toList := by
  cases particle <;> decide

/-- A count is one, too. -/
theorem isWord_count (n : Nat) : IsWord (toString n).toList := by
  have hdigits : (toString n).toList = Nat.toDigits 10 n := Nat.toList_repr
  rw [hdigits]
  exact isWord_toDigits n

/-- The texts that a point hands on to its macro leave the lines of it as they are. -/
structure Legible (p : Point) : Prop where
  /-- the name stands in a comment, and may be anything that does not end it -/
  targetName : '\n' ∉ p.targetName.toList
  /-- the material is a parameter -/
  material : IsWord p.material.toList
  /-- and so is the file -/
  output : IsWord p.output.toList

/-- The texts that a point hands on to its macro are in one piece each. -/
structure InOnePiece (p : Point) : Prop where
  /-- the name stands in a comment -/
  targetName : BlankFree p.targetName.toList
  /-- the material is a parameter -/
  material : IsWord p.material.toList
  /-- and so is the file -/
  output : IsWord p.output.toList

/-- What has no blanks has no line feed in it. -/
theorem InOnePiece.legible (hp : p.InOnePiece) : p.Legible :=
  ⟨hp.targetName.feed_not_mem, hp.material, hp.output⟩

/-- Every line of the macro is on one line. That is settled line by line, from the texts that are
put into it. -/
theorem feed_not_mem_macroLines (hp : p.Legible) :
    ∀ line ∈ p.macroLines.map String.toList, '\n' ∉ line := by
  have hthickness := (isWord_write .plain p.thickness).blankFree.feed_not_mem
  have hmomentum := (isWord_write .plain p.momentum).blankFree.feed_not_mem
  have henergy := (isWord_writeFixed 6 p.kineticEnergy).blankFree.feed_not_mem
  have hparticle := (isWord_particle p.particle).blankFree.feed_not_mem
  have hevents := (isWord_count p.events.toNat).blankFree.feed_not_mem
  have hname := hp.targetName
  have hmaterial := hp.material.blankFree.feed_not_mem
  have houtput := hp.output.blankFree.feed_not_mem
  simp only [macroLines, List.map_cons, List.map_nil, List.forall_mem_cons, String.toList_append,
    List.mem_append, hthickness, hmomentum, henergy, hparticle, hevents, hname, hmaterial, houtput,
    or_false]
  -- what is left are the fixed parts of the lines
  simp

/-- A line with a command word and one parameter. -/
theorem commandOf_word {line word : String} (first : String) (hline : line = first ++ " " ++ word)
    (hfirst : IsWord first.toList ∧ first.toList.head? = some '/') (hword : IsWord word.toList) :
    commandOf line.toList = (Command.ofWords [first, word]).map some := by
  obtain ⟨text, htext⟩ := List.head?_eq_some_iff.1 hfirst.2
  have hwords : line.toList = unwords ([first, word].map String.toList) := by
    simp [hline, unwords]
  rw [hwords]
  exact commandOf_unwords [first, word] (by simp [hfirst.1, hword]) (by simp [unwords, htext])

/-- A line with a command word, a quantity and its unit. -/
theorem commandOf_quantity {line word symbol : String} (first : String)
    (hline : line = first ++ " " ++ word ++ " " ++ symbol)
    (hfirst : IsWord first.toList ∧ first.toList.head? = some '/') (hword : IsWord word.toList)
    (hsymbol : IsWord symbol.toList) :
    commandOf line.toList = (Command.ofWords [first, word, symbol]).map some := by
  obtain ⟨text, htext⟩ := List.head?_eq_some_iff.1 hfirst.2
  have hwords : line.toList = unwords ([first, word, symbol].map String.toList) := by
    simp [hline, unwords]
  rw [hwords]
  exact commandOf_unwords [first, word, symbol] (by simp [hfirst.1, hword, hsymbol])
    (by simp [unwords, htext])

/-! ### Line by line -/

/-- The thickness, with its unit. -/
theorem commandOf_thickness {word : String} (h : IsWord word.toList) :
    commandOf ("/beamscan/target/thickness " ++ word ++ " mm").toList =
      (Command.ofWords ["/beamscan/target/thickness", word, "mm"]).map some := by
  refine commandOf_quantity "/beamscan/target/thickness" ?_ (by decide) h (by decide)
  rw [← String.toList_inj]
  simp

/-- The energy, with its unit. -/
theorem commandOf_energy {word : String} (h : IsWord word.toList) :
    commandOf ("/gun/energy " ++ word ++ " MeV").toList =
      (Command.ofWords ["/gun/energy", word, "MeV"]).map some := by
  refine commandOf_quantity "/gun/energy" ?_ (by decide) h (by decide)
  rw [← String.toList_inj]
  simp

/-- The material is taken as it stands. -/
theorem commandOf_material {word : String} (h : IsWord word.toList) :
    commandOf ("/beamscan/target/material " ++ word).toList = .ok (some (.targetMaterial word)) :=
  commandOf_word "/beamscan/target/material" rfl (by decide) h

/-- So is the file. -/
theorem commandOf_output {word : String} (h : IsWord word.toList) :
    commandOf ("/beamscan/output/filename " ++ word).toList = .ok (some (.outputFile word)) :=
  commandOf_word "/beamscan/output/filename" rfl (by decide) h

/-- The name of a species is read as the species. -/
theorem commandOf_particle (particle : Particle) :
    commandOf ("/gun/particle " ++ particle.name).toList = .ok (some (.gunParticle particle)) := by
  have hwords := commandOf_word "/gun/particle" rfl (by decide) (isWord_particle particle)
  rw [Command.ofWords_particle] at hwords
  exact hwords

/-- A count is read as the count. -/
theorem commandOf_beamOn (events : UInt64) :
    commandOf ("/run/beamOn " ++ toString events.toNat).toList = .ok (some (.beamOn events)) := by
  have hwords := commandOf_word "/run/beamOn" rfl (by decide) (isWord_count events.toNat)
  rw [Command.ofWords_beamOn] at hwords
  exact hwords

/-- The beam axis, which is the same for all points. -/
theorem commandOf_direction :
    commandOf "/gun/direction 0 0 1".toList = .ok (some (.gunDirection ⟨0.0, 0.0, 1.0⟩)) := by
  have hwords := commandOf_unwords ["/gun/direction", "0", "0", "1"] (by decide) (by decide)
  rw [Command.ofWords_direction] at hwords
  exact hwords

/-- The place of the gun, which is the same for all points. -/
theorem commandOf_position :
    commandOf "/gun/position 0 0 -80 cm".toList =
      .ok (some (.gunPosition ((⟨0.0, 0.0, -80.0⟩ : Vector3).scale Unit.cm))) := by
  have hwords := commandOf_unwords ["/gun/position", "0", "0", "-80", "cm"] (by decide) (by decide)
  rw [Command.ofWords_position] at hwords
  exact hwords

/-- The five lines on top are for the reader of the file. -/
theorem commandOf_comments (p : Point) :
    ∀ line ∈ p.macroLines.take 5, commandOf line.toList = .ok none := by
  simp only [macroLines, List.take_succ_cons, List.take_zero, List.forall_mem_cons]
  refine ⟨?_, ?_, ?_, ?_, ?_, fun _ h => absurd h List.not_mem_nil⟩ <;>
    exact commandOf_comment (by simp)

/-- The commands that are the same in every macro. -/
theorem commandOf_verbosity :
    ∀ line ∈ ["/control/verbose 0", "/run/verbose 0", "/event/verbose 0", "/tracking/verbose 0"],
      commandOf line.toList = .ok (some .verbosity) := by
  simp only [List.forall_mem_cons]
  exact ⟨rfl, rfl, rfl, rfl, fun _ h => absurd h List.not_mem_nil⟩

/-- The lines of a macro hold the commands of the point if the thickness and the energy can be read.
Otherwise the reading ends there. -/
theorem mapM_macroLines (hp : p.Legible) :
    (p.macroLines.map String.toList).mapM commandOf =
      (do
        let thickness ← Command.ofWords
          ["/beamscan/target/thickness", NumberStyle.plain.write p.thickness, "mm"]
        let energy ← Command.ofWords ["/gun/energy", Fixed.write 6 p.kineticEnergy, "MeV"]
        pure (p.lineCommands thickness energy)) := by
  have hcomments := commandOf_comments p
  have hverbosity := commandOf_verbosity
  have hempty : commandOf "".toList = .ok none := rfl
  have hprepare : commandOf "/run/initialize".toList = .ok (some .prepare) := rfl
  simp only [macroLines, List.take_succ_cons, List.take_zero, List.forall_mem_cons] at hcomments
  simp only [List.forall_mem_cons] at hverbosity
  simp only [macroLines, List.map_cons, List.map_nil, List.mapM_cons, List.mapM_nil, hcomments,
    hempty, hverbosity, commandOf_material hp.material,
    commandOf_thickness (isWord_write .plain p.thickness), hprepare, commandOf_particle,
    commandOf_energy (isWord_writeFixed 6 p.kineticEnergy), commandOf_direction,
    commandOf_position, commandOf_output hp.output, commandOf_beamOn]
  -- the lines before the thickness are read in any case, and so are those after the energy
  cases Command.ofWords ["/beamscan/target/thickness", NumberStyle.plain.write p.thickness, "mm"]
  · rfl
  · cases Command.ofWords ["/gun/energy", Fixed.write 6 p.kineticEnergy, "MeV"] <;> rfl

/-- So the lines are read exactly if the two texts are those of positive numbers. -/
theorem mapM_macroLines_eq_ok (hp : p.Legible) {cs : List (Option Command)} :
    (p.macroLines.map String.toList).mapM commandOf = .ok cs ↔
      ∃ thickness energy, IsPositive (NumberStyle.plain.write p.thickness) thickness ∧
        IsPositive (Fixed.write 6 p.kineticEnergy) energy ∧
        cs = p.lineCommands (.targetThickness thickness) (.gunEnergy energy) := by
  rw [mapM_macroLines hp]
  constructor
  · intro hcs
    cases hthickness : Command.ofWords
        ["/beamscan/target/thickness", NumberStyle.plain.write p.thickness, "mm"] with
    | error cause =>
      rw [hthickness] at hcs
      exact nomatch hcs
    | ok first =>
      cases henergy : Command.ofWords ["/gun/energy", Fixed.write 6 p.kineticEnergy, "MeV"] with
      | error cause =>
        rw [hthickness, henergy] at hcs
        exact nomatch hcs
      | ok second =>
        obtain ⟨thickness, hpositive, rfl⟩ := Command.ofWords_thickness_eq_ok.1 hthickness
        obtain ⟨energy, hpositive', rfl⟩ := Command.ofWords_energy_eq_ok.1 henergy
        rw [hthickness, henergy] at hcs
        rw [← Except.ok.inj hcs]
        exact ⟨thickness, energy, hpositive, hpositive', rfl⟩
  · rintro ⟨thickness, energy, hthickness, henergy, rfl⟩
    rw [Command.ofWords_thickness_eq_ok.2 ⟨thickness, hthickness, rfl⟩,
      Command.ofWords_energy_eq_ok.2 ⟨energy, henergy, rfl⟩]
    rfl

/-- The macro of a point is read if and only if its thickness and its energy read as positive
numbers. The commands are those of the point, with these two numbers. -/
theorem Legible.read_eq_ok (hp : p.Legible) {commands : List Command} :
    Script.read p.macroText = .ok commands ↔
      ∃ thickness energy, IsPositive (NumberStyle.plain.write p.thickness) thickness ∧
        IsPositive (Fixed.write 6 p.kineticEnergy) energy ∧
        commands =
          (p.lineCommands (.targetThickness thickness) (.gunEnergy energy)).reduceOption := by
  rw [Script.read, toList_macroText, Script.commandsFrom_flatMap_feed (feed_not_mem_macroLines hp),
    commandsFrom_eq_ok]
  simp only [mapM_macroLines_eq_ok hp]
  constructor
  · rintro ⟨_, ⟨thickness, energy, hthickness, henergy, rfl⟩, hcommands⟩
    exact ⟨thickness, energy, hthickness, henergy, hcommands⟩
  · rintro ⟨thickness, energy, hthickness, henergy, hcommands⟩
    exact ⟨_, ⟨thickness, energy, hthickness, henergy, rfl⟩, hcommands⟩

/-- The same of a point whose texts are in one piece. -/
theorem read_macroText_eq_ok (hp : p.InOnePiece) {commands : List Command} :
    Script.read p.macroText = .ok commands ↔
      ∃ thickness energy, IsPositive (NumberStyle.plain.write p.thickness) thickness ∧
        IsPositive (Fixed.write 6 p.kineticEnergy) energy ∧
        commands =
          (p.lineCommands (.targetThickness thickness) (.gunEnergy energy)).reduceOption :=
  hp.legible.read_eq_ok

/-- An energy that is read was finite and above half a millionth of an MeV. Below that its text is a
zero. -/
theorem energy_of_isPositive {energy : Float}
    (h : IsPositive (Fixed.write 6 p.kineticEnergy) energy) :
    p.kineticEnergy.isFinite = true ∧ 5e-7 < p.kineticEnergy :=
  (Fixed.exists_read_pos_iff _).1 ⟨energy, h.read, h.finite, h.pos⟩

/-- And the other way round: an energy above it is read as some positive number, if not as itself. -/
theorem exists_isPositive_energy (h : p.kineticEnergy.isFinite = true ∧ 5e-7 < p.kineticEnergy) :
    ∃ energy, IsPositive (Fixed.write 6 p.kineticEnergy) energy := by
  obtain ⟨energy, hread, hfinite, hpos⟩ := (Fixed.exists_read_pos_iff _).2 h
  exact ⟨energy, hread, hfinite, hpos⟩

/-- The plan of a point, with the numbers that its macro gives. -/
theorem plan_lineCommands (p : Point) (thickness energy : Float) :
    let plan := Plan.ofCommands
      (p.lineCommands (.targetThickness thickness) (.gunEnergy energy)).reduceOption
    plan.detector.targetMaterial = p.material ∧ plan.detector.targetThickness = thickness ∧
      plan.gun.particle = p.particle ∧ plan.events = p.events ∧ plan.prepared = true ∧
      plan.outputFile = some p.output := by
  have hevents : Plan.addCounts 0 p.events = p.events := by
    have hlt := p.events.toNat_lt_size
    rw [← UInt64.toNat_inj, Plan.toNat_addCounts, UInt64.toNat_zero]
    omega
  exact ⟨rfl, rfl, rfl, hevents, rfl, rfl⟩

end Point

/-! ## Valid requests

What the checks of a request have settled need not be asked again. Materials are names of the
catalog, and thicknesses are above zero. -/

/-- The names of the catalog are words. -/
theorem isWord_of_mem_names {material : String} (h : material ∈ Catalog.standard.names) :
    IsWord material.toList := by
  have hall : ∀ name ∈ Catalog.standard.names, IsWord name.toList := by decide
  exact hall _ h

namespace Request

variable {request : Request}

/-- The targets of a valid request are made of known materials and have a thickness. -/
theorem target_of_valid (h : request.problems Catalog.standard = []) {t : Target}
    (ht : t ∈ request.targets) : IsWord t.material.toList ∧ 0.0 < t.thickness := by
  have hsound := problems_eq_nil_iff.1 h
  exact ⟨isWord_of_mem_names (hsound.material t ht), hsound.thickness t ht⟩

end Request

/-! ## Files

The file of a point is one word exactly if neither the directory nor the name of the target has a
blank. The directory is not part of the request, so it is asked for. -/

/-- Seen from a directory without blanks, a path has blanks only if the part has. -/
theorem blankFree_join {base part : String} (hbase : BlankFree base.toList) :
    BlankFree (Path.join base part).toList ↔ BlankFree part.toList := by
  have hslash : BlankFree "/".toList := by decide
  unfold Path.join
  split
  · rfl
  · split <;> simp only [String.toList_append, blankFree_append, hbase, hslash, true_and]

/-- A part that does not start at the root leaves the directory in front of it. -/
theorem blankFree_join_relative {base part : String} (hpart : Path.isAbsolute part = false) :
    BlankFree (Path.join base part).toList ↔ BlankFree base.toList ∧ BlankFree part.toList := by
  have hslash : BlankFree "/".toList := by decide
  unfold Path.isAbsolute at hpart
  unfold Path.join
  rw [hpart, if_neg Bool.false_ne_true]
  split <;> simp only [String.toList_append, blankFree_append, hslash, and_true]

/-- A path that something was joined to is not empty. -/
theorem join_ne_nil {part : String} (h : part.toList ≠ []) (base : String) :
    (Path.join base part).toList ≠ [] := by
  unfold Path.join
  split
  · exact h
  · split <;> simp [h]

/-- The numbers and the units in the name of a point have no blanks. -/
theorem blankFree_stemOf {name : String} {momentum thickness : Float} :
    BlankFree (Point.stemOf name momentum thickness).toList ↔ BlankFree name.toList := by
  have hmomentum := (Point.isWord_write .plain momentum).blankFree
  have hthickness := (Point.isWord_write .plain thickness).blankFree
  have hscore : BlankFree "_".toList := by decide
  have hgev : BlankFree "GeV_".toList := by decide
  have hmm : BlankFree "mm".toList := by decide
  simp only [Point.stemOf, String.toList_append, blankFree_append, hmomentum, hthickness, hscore,
    hgev, hmm, and_true]

namespace Request

variable {request : Request} {results : String} {t : Target}

/-- The file of a point is a word exactly if the name of its target has no blanks. A path of several
names may have slashes, which are no blanks. -/
theorem isWord_output (hresults : BlankFree results.toList) (particle : Particle)
    (momentum : Float) :
    IsWord (request.point particle results t momentum).output.toList ↔ BlankFree t.name.toList := by
  have houtput : (request.point particle results t momentum).output =
      Path.join (Path.join results (Point.stemOf t.name momentum t.thickness)) "events.csv" := rfl
  have hfile : Path.isAbsolute "events.csv" = false ∧ IsWord "events.csv".toList := by decide
  rw [houtput]
  constructor
  · intro h
    exact blankFree_stemOf.1
      ((blankFree_join hresults).1 ((blankFree_join_relative hfile.1).1 h.blankFree).1)
  · intro h
    exact ⟨join_ne_nil hfile.2.ne_nil _, (blankFree_join_relative hfile.1).2
      ⟨(blankFree_join hresults).2 (blankFree_stemOf.2 h), hfile.2.blankFree⟩⟩

end Request

/-! ## The round trip

Everything in `Fulfils` is said of the plan, and nothing of the text. So it is what the run will do
that is compared with the request. -/

/-- The plan does what a request asks for at one of its targets. -/
structure Fulfils (plan : Plan) (request : Request) (t : Target) (output : String) : Prop where
  /-- the target is made of the material -/
  material : plan.detector.targetMaterial = t.material
  /-- and so thick -/
  thickness : plan.detector.targetThickness = t.thickness
  /-- the gun fires the species of the beam -/
  particle : request.particle? = some plan.gun.particle
  /-- as often as the beam says -/
  events : plan.events = request.beam.events
  /-- the run is prepared -/
  prepared : plan.prepared = true
  /-- the table goes to the file -/
  output : plan.outputFile = some output

namespace Request

/-- **A macro reproduces its request.** A request without problems has a species and a point for
every target and momentum. The macro of a point is read, and its plan does what the request asks for, if
and only if the name of the target has no blanks, its thickness is finite, and the kinetic energy is
finite and above half a millionth of an MeV. Printing is no obstacle: the text of a finite thickness is
read back as the thickness. -/
theorem macro_fulfils_iff {request : Request} (hvalid : request.problems Catalog.standard = [])
    {results : String} (hresults : BlankFree results.toList) :
    ∃ particle, request.particle? = some particle ∧
      request.points? results = some (request.targets.flatMap fun t =>
        request.beam.momenta.map (request.point particle results t)) ∧
      ∀ t ∈ request.targets, ∀ momentum ∈ request.beam.momenta,
        let p := request.point particle results t momentum
        (∃ commands, Script.read p.macroText = .ok commands ∧
          Fulfils (Plan.ofCommands commands) request t p.output) ↔
        BlankFree t.name.toList ∧ t.thickness.isFinite = true ∧
          p.kineticEnergy.isFinite = true ∧ 5e-7 < p.kineticEnergy := by
  obtain ⟨particle, hparticle⟩ := (problems_eq_nil_iff.1 hvalid).exists_particle?
  refine ⟨particle, hparticle, by rw [points?, hparticle]; rfl, ?_⟩
  intro t ht momentum _ p
  obtain ⟨hmaterial, hpos⟩ := target_of_valid hvalid ht
  have houtput : IsWord p.output.toList ↔ BlankFree t.name.toList :=
    isWord_output hresults particle momentum
  constructor
  · rintro ⟨commands, hread, hplan⟩
    -- the plan names the whole file, so the file is a word, and with it the name of the target
    have hname := houtput.1 (Script.isWord_of_outputFile hread hplan.output)
    obtain ⟨thickness, energy, hthickness, henergy, rfl⟩ :=
      (Point.read_macroText_eq_ok ⟨hname, hmaterial, houtput.2 hname⟩).1 hread
    obtain ⟨-, hsame, -⟩ := Point.plan_lineCommands p thickness energy
    rw [← hplan.thickness, hsame]
    exact ⟨hname, hthickness.finite, Point.energy_of_isPositive henergy⟩
  · rintro ⟨hname, hfinite, hrange⟩
    obtain ⟨energy, henergy⟩ := Point.exists_isPositive_energy hrange
    obtain ⟨hmat, hthick, hpart, hevents, hprepared, hout⟩ :=
      Point.plan_lineCommands p t.thickness energy
    refine ⟨_, (Point.read_macroText_eq_ok ⟨hname, hmaterial, houtput.2 hname⟩).2
      ⟨t.thickness, energy, ⟨readFloat?_plain hfinite hpos, hfinite, hpos⟩, henergy, rfl⟩, ?_⟩
    refine ⟨hmat, hthick, ?_, hevents, hprepared, hout⟩
    rw [hpart]
    exact hparticle

/-- Two targets of one material, the second of which has a name of two words. -/
def graniteRequest : Request where
  targets := [⟨"granite", "Granite", 10.0⟩, ⟨"black granite", "Granite", 10.0⟩]
  beam := ⟨"e-", [2.0], 100⟩

/-- The request has no problems; the macro of the first target reproduces it, and that of the second
does not. -/
theorem macro_fulfils_iff_granite :
    graniteRequest.problems Catalog.standard = [] ∧
      (let p := graniteRequest.point .electron "results" ⟨"granite", "Granite", 10.0⟩ 2.0
        ∃ commands, Script.read p.macroText = .ok commands ∧ Fulfils (Plan.ofCommands commands)
          graniteRequest ⟨"granite", "Granite", 10.0⟩ p.output) ∧
      ¬ (let p := graniteRequest.point .electron "results" ⟨"black granite", "Granite", 10.0⟩ 2.0
        ∃ commands, Script.read p.macroText = .ok commands ∧ Fulfils (Plan.ofCommands commands)
          graniteRequest ⟨"black granite", "Granite", 10.0⟩ p.output) := by
  have hvalid : graniteRequest.problems Catalog.standard = [] := by
    rw [← List.isEmpty_iff]
    decide +kernel
  have hresults : BlankFree "results".toList := by decide
  obtain ⟨particle, hparticle, -, hall⟩ := macro_fulfils_iff hvalid hresults
  obtain rfl : .electron = particle := Option.some.inj hparticle
  refine ⟨hvalid, ?_, ?_⟩
  · exact (hall _ List.mem_cons_self 2.0 List.mem_cons_self).2
      ⟨by decide, by decide +kernel, by decide +kernel⟩
  · intro h
    obtain ⟨hname, -⟩ :=
      (hall _ (List.mem_cons_of_mem _ List.mem_cons_self) 2.0 List.mem_cons_self).1 h
    exact absurd hname (by decide)

end Request

end Telescope.Scan
