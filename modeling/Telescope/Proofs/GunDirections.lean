import Telescope.Proofs.Lengths

/-!
# The direction of a macro and the direction of the gun

A direction of any length but zero is accepted, and the gun divides it by its length. Both go by the
length that is computed, and differ from what is meant in two ways: a small direction is refused, since
its length comes to zero, and a great one is accepted and then replaced by the beam axis, since its
length comes to infinity.

* `Command.ofWords_of_givesDirection` is the answer to a line that gives a direction.
* `Honours`: a line has its direction taken, unless that is zero, and the gun fires along it.
* `honours_iff`: so it is exactly if the length neither vanishes nor overflows, or the direction is zero.

The two parts of the program disagree about what a direction is. The reader of macros asks for a
length that is not zero; the gun asks for one that is finite as well, and has the beam axis for all
others. Nothing is said to the user in the second case.
-/

namespace Telescope

open Double

/-- All components are zero, of either sign. -/
def Vector3.IsZero (v : Vector3) : Prop := v.IsWithin 0.0

instance (v : Vector3) : Decidable v.IsZero := inferInstanceAs (Decidable (v.IsWithin _))

/-- A zero vanishes. -/
theorem Vector3.IsZero.vanishes {v : Vector3} (h : v.IsZero) : v.Vanishes := by
  have hle : (0.0 : Float) ≤ 1.5717277847026285e-162 := by decide +kernel
  exact ⟨Double.le_trans h.1 hle, Double.le_trans h.2.1 hle, Double.le_trans h.2.2 hle⟩

/-! ## Lines

The reader computes the length of what it has read, so its answer is a condition on the squares. -/

namespace Command

open Parameters

variable {words : List String} {line : List Char} {d : Vector3}

/-- The reader of the parameters of a direction. -/
theorem parameters_direction : parameters "/gun/direction" = (do
    let direction ← vector "/gun/direction"
    if direction.norm == 0.0 then throw (.invalidValue "/gun/direction" "0 0 0")
    return .gunDirection direction) := rfl

/-- **A direction is refused exactly if the squares of its components vanish.** The message then
calls it `0 0 0`, whatever it was. -/
theorem ofWords_of_givesDirection (h : GivesDirection words d) : ofWords words =
    if d.Vanishes then .error (.invalidValue "/gun/direction" "0 0 0") else .ok (.gunDirection d) := by
  obtain ⟨rest, hgives⟩ := h
  obtain ⟨left, rfl⟩ : ∃ left, words = "/gun/direction" :: left := by
    obtain ⟨-, a, b, c, rfl, -⟩ := hgives
    exact ⟨_, rfl⟩
  have hfinite := hgives.1
  have hvector := givesVector_iff.1 hgives
  split
  · next hvanishes =>
    have hrefused : parameters "/gun/direction" left =
        .error (.invalidValue "/gun/direction" "0 0 0") := by
      rw [parameters_direction, bind_eq_error]
      exact .inr ⟨d, rest, hvector,
        check_eq_error.2 ⟨(Vector3.norm_beq_zero_iff hfinite).2 hvanishes, rfl⟩⟩
    rw [ofWords, hrefused]
    rfl
  · next hkept =>
    rw [ofWords_cons_eq_ok]
    refine ⟨rest, ?_⟩
    rw [parameters_direction, bind_eq_ok]
    refine ⟨d, rest, hvector, check_eq_ok.2 ⟨?_, rfl, rfl⟩⟩
    rwa [Vector3.norm_beq_zero_iff hfinite]

end Command

/-! ## Guns

A gun keeps its direction as it was given and normalises it when it fires. -/

namespace Gun

open Command (readFloat?_zero)

variable {gun : Gun} {line : List Char} {d : Vector3}

/-- A direction that has a unit vector is the one that the gun fires along. -/
theorem momentum_fire_of_some {u : Vector3} (h : gun.direction.direction? = some u) (event : UInt64) :
    (gun.fire event).momentum = u.scale gun.momentum := by
  rw [fire, h, Option.getD_some]

/-- Any other is replaced by the beam axis. -/
theorem momentum_fire_of_none (h : gun.direction.direction? = none) (event : UInt64) :
    (gun.fire event).momentum = Vector3.beamAxis.scale gun.momentum := by
  rw [fire, h, Option.getD_none]

/-- The line is taken with its direction unless that is zero, and guns with this direction fire
along it. This is what the documentation of the gun promises: a direction need not be normalised. -/
def Honours (line : List Char) (d : Vector3) : Prop :=
  (Command.ofLine line = .ok (.gunDirection d) ↔ ¬ d.IsZero) ∧
    (Command.ofLine line = .ok (.gunDirection d) → ∀ (gun : Gun) (event : UInt64), gun.direction = d →
      ∃ u, d.direction? = some u ∧ (gun.fire event).momentum = u.scale gun.momentum)

/-- **The direction of a macro is the direction of the gun unless its length vanishes or overflows.** Of
the lines that give a finite direction exactly those with vanishing squares are refused, always as zero.
Of the others those are kept whose sum of squares is finite, and a gun with any other direction fires
along the beam axis. So a line is honoured unless the direction vanishes without being zero, or its sum
of squares is infinite: that needs a component above `7.7e153`, and one above `1.34e154` is enough. -/
theorem honours_iff (h : GivesDirection ((Text.words line).map String.ofList) d) :
    (Honours line d ↔ (d.Vanishes → d.IsZero) ∧ (d.Vanishes ∨ (d.dot d).isFinite = true)) ∧
    (d.Vanishes → Command.ofLine line = .error (.invalidValue "/gun/direction" "0 0 0")) ∧
    (¬ d.Vanishes → Command.ofLine line = .ok (.gunDirection d)) ∧
    (∀ (gun : Gun) (event : UInt64), gun.direction = d → (d.dot d).isFinite = false →
      (gun.fire event).momentum = Vector3.beamAxis.scale gun.momentum) ∧
    (d.IsWithin 7.7e153 → (d.dot d).isFinite = true) ∧
    (1.3407807929942596e154 < d.x.abs ∨ 1.3407807929942596e154 < d.y.abs ∨
      1.3407807929942596e154 < d.z.abs → (d.dot d).isFinite = false) := by
  have hfinite : d.IsFinite := by
    obtain ⟨rest, hgives⟩ := h
    exact hgives.1
  have hanswer : Command.ofLine line = if d.Vanishes then
      .error (.invalidValue "/gun/direction" "0 0 0") else .ok (.gunDirection d) :=
    Command.ofWords_of_givesDirection h
  -- the reader looks at the computed length, which may be zero for a direction that is not
  have htaken : Command.ofLine line = .ok (.gunDirection d) ↔ ¬ d.Vanishes := by
    rw [hanswer]
    by_cases hvanishes : d.Vanishes <;> simp [hvanishes]
  -- and the gun looks at it again: a direction with an infinite one is replaced
  have haxis : (d.dot d).isFinite = false → d.direction? = none := by
    intro hinfinite
    by_contra hsome
    rw [((Vector3.direction?_ne_none_iff hfinite).1 hsome).1] at hinfinite
    exact absurd hinfinite Bool.true_eq_false.mp
  refine ⟨⟨?honoured, ?honours⟩, ?refused, htaken.2, ?replaced, Vector3.isFinite_dot_self hfinite,
    Vector3.not_isFinite_dot_self hfinite⟩
  case honoured =>
    rintro ⟨haccepts, hfires⟩
    rw [htaken] at haccepts hfires
    constructor
    · intro hvanishes
      by_contra hzero
      exact haccepts.2 hzero hvanishes
    · by_cases hvanishes : d.Vanishes
      · exact .inl hvanishes
      · obtain ⟨u, hu, -⟩ := hfires hvanishes { Gun.default with direction := d } 0 rfl
        have hsome : d.direction? ≠ none := by
          rw [hu]
          exact Option.some_ne_none u
        exact .inr ((Vector3.direction?_ne_none_iff hfinite).1 hsome).1
  case honours =>
    rintro ⟨hzero, hlength⟩
    constructor
    · rw [htaken, not_iff_not]
      exact ⟨hzero, Vector3.IsZero.vanishes⟩
    · intro haccepted gun event hgun
      have hkept := htaken.1 haccepted
      obtain ⟨u, hu⟩ := Option.ne_none_iff_exists'.1
        ((Vector3.direction?_ne_none_iff hfinite).2 ⟨hlength.resolve_left hkept, hkept⟩)
      exact ⟨u, hu, momentum_fire_of_some (hgun ▸ hu) event⟩
  case refused =>
    intro hvanishes
    rw [hanswer, if_pos hvanishes]
  case replaced =>
    intro gun event hgun hinfinite
    exact momentum_fire_of_none (hgun ▸ haxis hinfinite) event

/-- A direction across the beam, with one component that is not zero. -/
theorem givesDirection_sideways (first : String) {x : Float}
    (hread : readFloat? first.toList = some x ∧ x.isFinite = true) :
    GivesDirection ["/gun/direction", first, "0", "0"] ⟨x, 0.0, 0.0⟩ := by
  obtain ⟨hzero, hfinite⟩ := readFloat?_zero
  exact ⟨[], ⟨hread.2, hfinite, hfinite⟩, first, "0", "0", rfl, hread.1, hzero, hzero⟩

/-- A great direction across the beam is accepted, and the gun fires along the beam. -/
theorem honours_iff_great :
    let line := "/gun/direction 1e200 0 0".toList
    let gun := { Gun.default with direction := ⟨1e200, 0.0, 0.0⟩ }
    Command.ofLine line = .ok (.gunDirection gun.direction) ∧ ¬ Honours line gun.direction ∧
      (gun.fire 0).momentum = Vector3.beamAxis.scale gun.momentum := by
  intro line gun
  have hgives : GivesDirection ((Text.words line).map String.ofList) gun.direction :=
    givesDirection_sideways "1e200" (by decide +kernel)
  obtain ⟨hhonours, -, htaken, hreplaced, -⟩ := honours_iff hgives
  have hkept : ¬ gun.direction.Vanishes := by decide +kernel
  have hinfinite : (gun.direction.dot gun.direction).isFinite = false := by decide +kernel
  refine ⟨htaken hkept, ?_, hreplaced gun 0 rfl hinfinite⟩
  rw [hhonours]
  rintro ⟨-, hvanishes | hsum⟩
  · exact hkept hvanishes
  · rw [hinfinite] at hsum
    exact Bool.false_ne_true hsum

/-- A small direction is refused as zero. -/
theorem not_honours_small :
    let line := "/gun/direction 1e-200 0 0".toList
    Command.ofLine line = .error (.invalidValue "/gun/direction" "0 0 0") ∧
      ¬ Honours line ⟨1e-200, 0.0, 0.0⟩ := by
  intro line
  have hgives : GivesDirection ((Text.words line).map String.ofList) ⟨1e-200, 0.0, 0.0⟩ :=
    givesDirection_sideways "1e-200" (by decide +kernel)
  have hanswer := Command.ofWords_of_givesDirection hgives
  rw [if_pos (by decide +kernel)] at hanswer
  refine ⟨hanswer, ?_⟩
  rintro ⟨haccepts, -⟩
  have htaken := haccepts.2 (by decide +kernel)
  exact nomatch hanswer.symm.trans htaken

end Gun

end Telescope
