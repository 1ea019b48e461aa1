import Telescope.Proofs.MacroRoundTrip

/-!
# The commands of a macro

A macro shows the name of its target in a comment, the name of the material and the file as parameters.
Only what would end a line or a word can do harm there: of the name nothing but a line feed, not a `#`,
a slash, a carriage return or any other blank; of the other two a blank.

* `Point.commands`: the commands that a macro is to have.
* `Point.Legible.read_eq_commands`: they are the commands that it has, in their order, with nothing in
  between, and the name of the target makes no difference.

Nothing is assumed about printing. The thickness is read back as the double it was, since its
shortest decimal is rounded to it and to no other; the energy is what its six places say.
-/

namespace Telescope.Scan.Point

open Command (IsPositive)

/-- The commands that the macro of a point is to have, with the kinetic energy that it shows. Four
of them only set how much is written to the terminal. -/
def commands (p : Point) (energy : Float) : List Command :=
  [.verbosity, .verbosity, .verbosity, .verbosity,
    .targetMaterial p.material,
    .targetThickness p.thickness,
    .prepare,
    .gunParticle p.particle,
    .gunEnergy energy,
    .gunDirection ⟨0.0, 0.0, 1.0⟩,
    .gunPosition ⟨0.0, 0.0, -800.0⟩,
    .outputFile p.output,
    .beamOn p.events]

/-- The gun stands 80 cm before the target. -/
theorem scale_cm_position :
    (⟨0.0, 0.0, -80.0⟩ : Vector3).scale Unit.cm = ⟨0.0, 0.0, -800.0⟩ := by
  have hside : (0.0 : Float) * Unit.cm = 0.0 := by decide +kernel
  have hfront : (-80.0 : Float) * Unit.cm = -800.0 := by decide +kernel
  rw [Vector3.scale, hside, hfront]

/-- The lines without a command leave none behind. -/
theorem reduceOption_lineCommands (p : Point) (energy : Float) :
    (p.lineCommands (.targetThickness p.thickness) (.gunEnergy energy)).reduceOption =
      p.commands energy := by
  rw [lineCommands, scale_cm_position]
  rfl

variable {p : Point}

/-- Another name that does not end the comment is as good, since no command has the name in it. -/
theorem Legible.rename (hp : p.Legible) {name : String} (hname : '\n' ∉ name.toList) :
    ({ p with targetName := name } : Point).Legible :=
  ⟨hname, hp.material, hp.output⟩

/-- **A macro has the commands of its point.** The name of the target may be any text without a line
feed, the material and the file any words, and the thickness any positive number; the energy is the
positive number that its text with six decimal places stands for. Then the macro is read, as thirteen
commands, and it is read as the same with any other such name. -/
theorem Legible.read_eq_commands (hp : p.Legible)
    (hthickness : p.thickness.isFinite = true ∧ 0.0 < p.thickness)
    {energy : Float} (henergy : IsPositive (Fixed.write 6 p.kineticEnergy) energy) :
    Script.read p.macroText = .ok (p.commands energy) ∧
      ∀ name : String, '\n' ∉ name.toList →
        Script.read ({ p with targetName := name } : Point).macroText = .ok (p.commands energy) := by
  have hpositive : IsPositive (NumberStyle.plain.write p.thickness) p.thickness :=
    ⟨readFloat?_plain hthickness.1 hthickness.2, hthickness.1, hthickness.2⟩
  have hall : ∀ q : Point, q.Legible → q.thickness = p.thickness →
      q.kineticEnergy = p.kineticEnergy → Script.read q.macroText = .ok (q.commands energy) := by
    intro q hq hsame hsame'
    rw [← hsame] at hpositive
    rw [← hsame'] at henergy
    apply hq.read_eq_ok.2
    exact ⟨q.thickness, energy, hpositive, henergy, (reduceOption_lineCommands q energy).symm⟩
  constructor
  · exact hall p hp rfl rfl
  · intro name hname
    exact hall _ (hp.rename hname) rfl rfl

/-- A name like a command, with line ends of other kinds in it. -/
def oddlyNamed : Point where
  targetName := "#\r/run/beamOn 5\r\u2028/run/beamOn 7 \u0085"
  material := "Granite"
  thickness := 10.0
  momentum := 2.0
  particle := .electron
  events := 100
  output := "results/events.csv"

/-- The name does no harm, although each of its parts would be a line of its own for a reader that
ends lines where Unicode does. -/
theorem Legible.read_eq_commands_oddlyNamed :
    ∃ energy, IsPositive (Fixed.write 6 oddlyNamed.kineticEnergy) energy ∧
      Script.read oddlyNamed.macroText = .ok (oddlyNamed.commands energy) := by
  obtain ⟨energy, henergy⟩ : ∃ energy, IsPositive (Fixed.write 6 oddlyNamed.kineticEnergy) energy :=
    exists_isPositive_energy (by decide +kernel)
  have hlegible : oddlyNamed.Legible := ⟨by decide, by decide, by decide⟩
  exact ⟨energy, henergy, (hlegible.read_eq_commands (by decide +kernel) henergy).1⟩

end Telescope.Scan.Point
