import Telescope.Proofs.DoubleOrder
import Telescope.Proofs.ScriptLines

/-!
# The numbers of commands

A number is refused unless it is finite, before its unit is applied, and unless it is positive,
afterwards. So the product can still be infinite, and a positive number can become zero and be refused.

* `Unit.isFinite_mul_iff` and `Unit.mul_le_zero_iff` say for which numbers and units this happens;
* `Command.Usable` and `CommandError.Justified` are what an answer of the reader says about the numbers
  of the line; `Command.usable_of_parameters` and `Command.justified_of_parameters` show them by the
  cases of the command word;
* `Command.usable_ofLine` is the result for lines.

The reader checks in two places what is one question. `Parameters.number` looks at the number as it
is written, and the range check looks at the product with the unit. Between the two stands one
multiplication of doubles, and everything that can go wrong goes wrong there; so the first section
is about that multiplication alone, and the others only carry its answer through the reader.

The bounds are exact. `LastFinite` pins the greatest number that a unit leaves finite by showing the
next double to be infinite, and `vanishing_um` pins the least one that a unit leaves positive in the
same way.
-/

namespace Telescope

open Double

/-! ## Numbers in a unit

There are four factors, `0.001`, `1`, `10` and `1000`, and a product with one of them is the exact
product, rounded once (`isRounded_mul`). Rounding respects the order. So for each factor there is
one place where products become infinite and one place where they become zero, and it is enough to
find it. -/

namespace Unit

/-- The factors of the units of length. Those of the units of energy are among them. -/
def IsFactor (f : Float) : Prop := f = um ∨ f = mm ∨ f = cm ∨ f = m

/-- The number is finite, but too great in this unit. -/
def Overflows (x f : Float) : Prop :=
  f = cm ∧ 1.7976931348623158e307 < x.abs ∨ f = m ∧ 1.7976931348623156e305 < x.abs

/-- The number is positive, but too small in this unit. -/
def Vanishes (x f : Float) : Prop := f = um ∧ 0.0 < x ∧ x < 2.47e-321

/-- Whatever symbol of a unit of length a line has, its factor is one of the four. -/
theorem isFactor_of_length {symbol : String} {f : Float} (h : length? symbol = some f) :
    IsFactor f := by
  unfold length? at h
  split at h
  · exact .inl (Option.some.inj h).symm
  · exact .inr (.inl (Option.some.inj h).symm)
  · exact .inr (.inr (.inl (Option.some.inj h).symm))
  · exact .inr (.inr (.inr (Option.some.inj h).symm))
  · exact nomatch h

/-- So is the factor of an energy: among the units of energy there is none of ten, and the other three
factors are those of lengths. -/
theorem isFactor_of_energy {symbol : String} {f : Float} (h : energy? symbol = some f) :
    IsFactor f := by
  unfold energy? at h
  split at h
  · exact .inl (Option.some.inj h).symm
  · exact .inr (.inl (Option.some.inj h).symm)
  · exact .inr (.inr (.inr (Option.some.inj h).symm))
  · exact nomatch h

variable {x f : Float}

/-- All that the rounding lemmas ask of a factor. -/
theorem IsFactor.finite_pos (h : IsFactor f) : f.isFinite = true ∧ 0 < value f := by
  obtain rfl | rfl | rfl | rfl := h <;> with_unfolding_all decide

/-- The size of a product is the product of the sizes, rounded. With the sign out of the way the
lemmas below need to compare sizes only, once for both signs. -/
theorem abs_value_mul (hx : x.isFinite = true) (hf : f.isFinite = true) (hpos : 0 < value f) :
    |value (x * f)| = rounded (|value x| * value f) := by
  rw [(isRounded_mul hx hf).value_eq, abs_rounded, abs_mul, abs_of_pos hpos]

/-- A factor of at most one makes no number too great, so for micrometres and millimetres there is
nothing to find. -/
theorem isFinite_mul_of_le_one (hx : x.isFinite = true) (hf : f.isFinite = true) (hpos : 0 < value f)
    (hle : value f ≤ 1) : (x * f).isFinite = true := by
  have habs : Exactly x.abs |value x| := by
    have hnumber := isNaN_of_isFinite hx
    refine ⟨?_, value_abs x⟩
    rw [isFinite_iff ((isNaN_abs x).trans hnumber), value_abs, abs_abs]
    exact (isFinite_iff hnumber).1 hx
  refine (isRounded_mul hx hf).isFinite habs ?_
  rw [abs_mul, abs_of_pos hpos]
  exact mul_le_of_le_one_right (abs_nonneg _) hle

/-- Of the positive numbers the first is the last one that is finite with this factor, and the second is
the next one. -/
structure LastFinite (f g g' : Float) : Prop where
  /-- there is none between them -/
  adjacent : Adjacent g g'
  /-- both are numbers that can be given -/
  isFinite : g.isFinite = true ∧ g'.isFinite = true
  /-- they are positive -/
  pos : 0 < value g'
  /-- the first is finite with the factor, and the second is not -/
  isFinite_mul : (g * f).isFinite = true ∧ (g' * f).isFinite = false

/-- Ten times this number is the last product below the limit of doubles. -/
theorem lastFinite_cm : LastFinite cm 1.7976931348623158e307 1.797693134862316e307 where
  adjacent := .of_parts 7205759403792794 968 (by decide +kernel)
  isFinite := by decide +kernel
  pos := by decide +kernel
  isFinite_mul := by decide +kernel

/-- The same for the thousandfold. -/
theorem lastFinite_m : LastFinite m 1.7976931348623156e305 1.797693134862316e305 where
  adjacent := .of_parts 4611686018427388 962 (by decide +kernel)
  isFinite := by decide +kernel
  pos := by decide +kernel
  isFinite_mul := by decide +kernel

/-- A factor makes those numbers too great that are above the last one that it does not. Two
neighbours decide it for all numbers, since rounded products are in the order of the numbers. -/
theorem LastFinite.isFinite_mul_iff {g g' : Float} (h : LastFinite f g g') (hx : x.isFinite = true)
    (hf : f.isFinite = true) (hpos : 0 < value f) : (x * f).isFinite = true ↔ ¬ g < x.abs := by
  obtain ⟨hadjacent, ⟨hg, hg'⟩, hpos', hlast, hnext⟩ := h
  have hnumber := isNaN_of_isFinite hx
  have habs : x.abs.isNaN = false := (isNaN_abs x).trans hnumber
  rw [isFinite_iff (isRounded_mul hx hf).isNaN, abs_value_mul hx hf hpos]
  constructor
  · intro hbelow hlt
    have hle := value_le_of_le (hadjacent.le_of_lt' hlt)
    rw [value_abs] at hle
    have hmono := rounded_mono (mul_le_mul_of_nonneg_right hle hpos.le)
    rw [← Bool.not_eq_true, isFinite_iff (isRounded_mul hg' hf).isNaN, abs_value_mul hg' hf hpos,
      abs_of_pos hpos'] at hnext
    exact hnext (hmono.trans_lt hbelow)
  · intro hle
    have hle' := value_le_of_le (le_of_not_lt hadjacent.1 habs hle)
    rw [value_abs] at hle'
    have hmono := rounded_mono (mul_le_mul_of_nonneg_right hle' hpos.le)
    rw [isFinite_iff (isRounded_mul hg hf).isNaN, abs_value_mul hg hf hpos,
      abs_of_nonneg ((abs_nonneg _).trans hle')] at hlast
    exact hmono.trans_lt hlast

/-- No number is too great in a unit that makes it smaller. -/
theorem not_overflows_of_le_one (hle : value f ≤ 1) : ¬ Overflows x f := by
  have hgreater : 1 < value cm ∧ 1 < value m := by with_unfolding_all decide
  rintro (⟨rfl, -⟩ | ⟨rfl, -⟩)
  · exact hgreater.1.not_ge hle
  · exact hgreater.2.not_ge hle

/-- **Only centimetres and units of a thousand make finite numbers infinite.** This is what the
check of the number, which comes before the unit, does not see. -/
theorem isFinite_mul_iff (hx : x.isFinite = true) (hf : IsFactor f) :
    (x * f).isFinite = true ↔ ¬ Overflows x f := by
  obtain ⟨hfinite, hpos⟩ := hf.finite_pos
  have hsmall : value um ≤ 1 ∧ value mm ≤ 1 := by with_unfolding_all decide
  have hdistinct : cm ≠ m := by with_unfolding_all decide
  obtain rfl | rfl | rfl | rfl := hf
  · exact iff_of_true (isFinite_mul_of_le_one hx hfinite hpos hsmall.1)
      (not_overflows_of_le_one hsmall.1)
  · exact iff_of_true (isFinite_mul_of_le_one hx hfinite hpos hsmall.2)
      (not_overflows_of_le_one hsmall.2)
  · rw [lastFinite_cm.isFinite_mul_iff hx hfinite hpos, not_iff_not]
    exact ⟨fun h => .inl ⟨rfl, h⟩, fun h => h.elim And.right fun h => absurd h.1 hdistinct⟩
  · rw [lastFinite_m.isFinite_mul_iff hx hfinite hpos, not_iff_not]
    exact ⟨fun h => .inr ⟨rfl, h⟩, fun h => h.elim (fun h => absurd h.1.symm hdistinct) And.right⟩

/-- Greater numbers have greater products, in a unit as without one. -/
theorem mul_le_mul {y : Float} (hf : IsFactor f) (hx : x.isFinite = true) (hy : y.isFinite = true)
    (h : x ≤ y) : x * f ≤ y * f := by
  obtain ⟨hfinite, hpos⟩ := hf.finite_pos
  have hmul := isRounded_mul hx hfinite
  have hmul' := isRounded_mul hy hfinite
  rw [le_iff_value hmul.isNaN hmul'.isNaN, hmul.value_eq, hmul'.value_eq]
  exact rounded_mono (mul_le_mul_of_nonneg_right (value_le_of_le h) hpos.le)

/-- The last number that a thousandth makes zero, and the first that it does not. -/
theorem vanishing_um : Adjacent 2.465e-321 2.47e-321 ∧
    ((2.465e-321 : Float).isFinite = true ∧ 2.465e-321 * um ≤ 0.0) ∧
    ((2.47e-321 : Float).isFinite = true ∧ ¬ 2.47e-321 * um ≤ 0.0) :=
  ⟨.of_parts 500 (-1074) (by decide +kernel), by decide +kernel, by decide +kernel⟩

/-- A thousandth makes all numbers zero that are below the first one that it does not. -/
theorem mul_um_le_zero_iff (hx : x.isFinite = true) : x * um ≤ 0.0 ↔ x < 2.47e-321 := by
  obtain ⟨hadjacent, ⟨hlow, hnone⟩, hhigh, hsome⟩ := vanishing_um
  constructor
  · intro hzero
    by_contra hge
    have hle := le_of_not_lt (isNaN_of_isFinite hx) (isNaN_of_isFinite hhigh) hge
    exact hsome (Double.le_trans (mul_le_mul (.inl rfl) hhigh hx hle) hzero)
  · intro hlt
    exact Double.le_trans (mul_le_mul (.inl rfl) hx hlow (hadjacent.le_of_lt hlt)) hnone

/-- A factor of at least one keeps positive numbers positive: the product is no smaller than the
number. -/
theorem not_mul_le_zero (hf : IsFactor f) (hone : 1 ≤ value f) (hx : x.isFinite = true)
    (hpos : 0.0 < x) : ¬ x * f ≤ 0.0 := by
  have hnumber := isNaN_of_isFinite hx
  have hmul := isRounded_mul hx hf.finite_pos.1
  rw [lt_iff_value exactly_zero.isNaN hnumber, exactly_zero.value_eq] at hpos
  have hle := hmul.le_value hnumber (le_mul_of_one_le_right hpos.le hone)
  rw [le_iff_value hmul.isNaN exactly_zero.isNaN, exactly_zero.value_eq, not_le]
  exact hpos.trans_le hle

/-- **Only the units of a thousandth make positive numbers zero.** The range check then refuses a
number that is in its range. -/
theorem mul_le_zero_iff (hx : x.isFinite = true) (hf : IsFactor f) :
    x * f ≤ 0.0 ↔ x ≤ 0.0 ∨ Vanishes x f := by
  by_cases hle : x ≤ 0.0
  · have hzero : ∀ f, IsFactor f → 0.0 * f ≤ 0.0 := by
      rintro f (rfl | rfl | rfl | rfl) <;> with_unfolding_all decide
    have hproduct := mul_le_mul hf hx exactly_zero.isFinite hle
    exact iff_of_true (Double.le_trans hproduct (hzero f hf)) (.inl hle)
  · have hpos := (not_le_zero_iff_pos (isNaN_of_isFinite hx)).1 hle
    rw [or_iff_right hle]
    by_cases hum : f = um
    · subst hum
      rw [mul_um_le_zero_iff hx]
      exact ⟨fun h => ⟨rfl, hpos, h⟩, fun h => h.2.2⟩
    · have hone : 1 ≤ value f := by
        obtain rfl | rfl | rfl | rfl := hf
        · exact absurd rfl hum
        all_goals with_unfolding_all decide
      exact iff_of_false (not_mul_le_zero hf hone hx hpos) fun h => hum h.1

end Unit

/-! ## Answers

What an answer says about its line is said by the words of the line: `Gives` and its relatives name
the words that the numbers and the unit are read from. `Command.Usable` is the promise for a command
that is accepted, and `CommandError.Justified` the one for a range error. Other errors promise
nothing here. -/

/-- The words behind the numbers of a line give this factor: the first is the symbol of a unit, or there are
none and the factor is the usual one. -/
def GivesFactor (usual : Float) (unit? : String → Option Float) (rest : List String) (factor : Float) :
    Prop :=
  rest = [] ∧ factor = usual ∨ ∃ symbol left, rest = symbol :: left ∧ unit? symbol = some factor

/-- The line has this command, a finite number, and the symbol of a unit unless it ends there. -/
def Gives (words : List String) (command : String) (usual : Float) (unit? : String → Option Float)
    (x factor : Float) : Prop :=
  x.isFinite = true ∧ ∃ word rest, words = command :: word :: rest ∧ readFloat? word.toList = some x ∧
    GivesFactor usual unit? rest factor

/-- The line gives a thickness. -/
def GivesThickness (words : List String) (x factor : Float) : Prop :=
  Gives words "/beamscan/target/thickness" Unit.mm Unit.length? x factor

/-- The line gives an energy. -/
def GivesEnergy (words : List String) (x factor : Float) : Prop :=
  Gives words "/gun/energy" Unit.gev Unit.energy? x factor

/-- The line gives a field. A field has no unit, so the number itself is checked. -/
def GivesField (words : List String) (x : Float) : Prop :=
  x.isFinite = true ∧ ∃ word rest, words = "/beamscan/target/magnetFieldT" :: word :: rest ∧
    readFloat? word.toList = some x

/-- All components are finite. -/
def Vector3.IsFinite (v : Vector3) : Prop :=
  v.x.isFinite = true ∧ v.y.isFinite = true ∧ v.z.isFinite = true

/-- The line has this command and the finite components of a vector; the rest comes behind them. -/
def GivesVector (words : List String) (command : String) (v : Vector3) (rest : List String) : Prop :=
  v.IsFinite ∧ ∃ a b c, words = command :: a :: b :: c :: rest ∧
    readFloat? a.toList = some v.x ∧ readFloat? b.toList = some v.y ∧ readFloat? c.toList = some v.z

/-- The line gives a direction. It is not asked to have a length: the reader refuses a direction of
no length after it has been read. -/
def GivesDirection (words : List String) (d : Vector3) : Prop :=
  ∃ rest, GivesVector words "/gun/direction" d rest

/-- The line gives a position, which is in centimetres unless the line says otherwise. -/
def GivesPosition (words : List String) (v : Vector3) (factor : Float) : Prop :=
  ∃ rest, GivesVector words "/gun/position" v rest ∧ GivesFactor Unit.cm Unit.length? rest factor

/-- What a command says about the numbers of its line. A quantity is the number times its factor,
positive, and finite unless it has overflown; a position has three products to overflow. -/
def Command.Usable (words : List String) : Command → Prop
  | .targetThickness t => ∃ x f, GivesThickness words x f ∧ t = x * f ∧ 0.0 < t ∧
      (t.isFinite = true ↔ ¬ Unit.Overflows x f)
  | .gunEnergy t => ∃ x f, GivesEnergy words x f ∧ t = x * f ∧ 0.0 < t ∧
      (t.isFinite = true ↔ ¬ Unit.Overflows x f)
  | .magnetField b => GivesField words b ∧ b.isFinite = true ∧ 0.0 ≤ b
  | .gunDirection d => GivesDirection words d ∧ d.IsFinite
  | .gunPosition p => ∃ v f, GivesPosition words v f ∧ Unit.IsFactor f ∧ p = v.scale f ∧
      (p.IsFinite ↔ ¬ Unit.Overflows v.x f ∧ ¬ Unit.Overflows v.y f ∧ ¬ Unit.Overflows v.z f)
  | _ => True

/-- What a range error says about the numbers of its line: the number that it reports is finite and
stands in the line, and it violates its constraint or has vanished in its unit. -/
def CommandError.Justified (words : List String) : CommandError → Prop
  | .outOfRange _ x constraint => x.isFinite = true ∧
      (constraint = "B>=0." ∧ GivesField words x ∧ x < 0.0 ∨
        ∃ f, (GivesThickness words x f ∨ GivesEnergy words x f) ∧ (x ≤ 0.0 ∨ Unit.Vanishes x f))
  | _ => True

/-- The error is no range error. All readers but two can only fail in this way. -/
def CommandError.IsPlain : CommandError → Prop
  | .outOfRange .. => False
  | _ => True

/-- About plain errors nothing is promised. -/
theorem CommandError.IsPlain.justified {e : CommandError} (h : e.IsPlain) (words : List String) :
    e.Justified words := by
  cases e with
  | outOfRange => exact h.elim
  | _ => trivial

namespace Parameters

variable {α β : Type} {words left : List String} {command parameter : String} {e : CommandError}

/-- Two readers in a row fail where the first fails, or the second after it. With `bind_eq_ok` this
opens any reader without unfolding the monad again. -/
theorem bind_eq_error {m : Parameters α} {f : α → Parameters β} :
    (m >>= f) words = .error e ↔
      m words = .error e ∨ ∃ a rest, m words = .ok (a, rest) ∧ f a rest = .error e := by
  simp only [bind, StateT.bind, Except.bind]
  cases m words with
  | error e => simp
  | ok r =>
    obtain ⟨a, rest⟩ := r
    simp

/-- A reader that refuses gives this error and no other. -/
theorem throw_eq_error {cause : CommandError} :
    (throw cause : Parameters α) words = .error e ↔ cause = e := by
  change (.error cause : Except CommandError (α × List String)) = .error e ↔ _
  rw [Except.error.injEq]

/-- A reader that takes nothing cannot fail. -/
theorem pure_ne_error {a : α} : (pure a : Parameters α) words ≠ .error e :=
  fun h => nomatch h

/-- A missing word is no range error. -/
theorem isPlain_of_next (h : next command parameter words = .error e) : e.IsPlain := by
  cases words with
  | nil =>
    obtain rfl := Except.error.inj h
    trivial
  | cons word rest => exact nomatch h

/-- A word that is no number is no range error, nor is a number that is not finite. -/
theorem isPlain_of_number (h : number command parameter words = .error e) : e.IsPlain := by
  unfold number at h
  obtain h | ⟨word, rest, -, h⟩ := bind_eq_error.1 h
  · exact isPlain_of_next h
  · cases hread : readFloat? word.toList with
    | none =>
      simp only [hread] at h
      obtain rfl := throw_eq_error.1 h
      trivial
    | some x =>
      simp only [hread] at h
      split at h
      · exact absurd h pure_ne_error
      · obtain rfl := throw_eq_error.1 h
        trivial

/-- A vector fails by one of its components, so not by a range. -/
theorem isPlain_of_vector (h : vector command words = .error e) : e.IsPlain := by
  unfold vector at h
  simp only [bind_eq_error] at h
  obtain h | ⟨x, _, -, h | ⟨y, _, -, h | ⟨z, _, -, h⟩⟩⟩ := h
  · exact isPlain_of_number h
  · exact isPlain_of_number h
  · exact isPlain_of_number h
  · exact absurd h pure_ne_error

/-- A word that is no unit is no range error. -/
theorem isPlain_of_unit {usual : Float} {unit? : String → Option Float}
    (h : unit command usual unit? words = .error e) : e.IsPlain := by
  unfold unit at h
  split at h
  · exact nomatch h
  · split at h
    · exact nomatch h
    · obtain rfl := Except.error.inj h
      trivial

/-- Neither is a switch that is neither on nor off. -/
theorem isPlain_of_switch (h : switch command parameter words = .error e) : e.IsPlain := by
  unfold switch at h
  obtain h | ⟨word, rest, -, h⟩ := bind_eq_error.1 h
  · exact isPlain_of_next h
  · split at h
    case h_5 =>
      obtain rfl := throw_eq_error.1 h
      trivial
    all_goals exact absurd h pure_ne_error

/-- A vector that is read is what the line gives, and the other way round. Directions and positions
both start with this reader. -/
theorem givesVector_iff {v : Vector3} :
    GivesVector (command :: words) command v left ↔ vector command words = .ok (v, left) := by
  constructor
  · rintro ⟨hfinite, a, b, c, hwords, ha, hb, hc⟩
    obtain ⟨-, rfl⟩ := List.cons.inj hwords
    exact vector_of_read ⟨ha, hfinite.1⟩ ⟨hb, hfinite.2.1⟩ ⟨hc, hfinite.2.2⟩
  · intro h
    unfold vector at h
    simp only [bind_eq_ok, pure_eq_ok, number_eq_ok] at h
    obtain ⟨x, _, ⟨a, rfl, ha, hx⟩, y, _, ⟨b, rfl, hb, hy⟩, z, _, ⟨c, rfl, hc, hz⟩, rfl, rfl⟩ := h
    exact ⟨⟨hx, hy, hz⟩, a, b, c, rfl, ha, hb, hc⟩

section Quantity

variable {usual x f : Float} {unit? : String → Option Float} {constraint : String}
  {make : Float → Command} {made : Command}

/-- A unit takes one word, or none at the end of the line. The two cases are the two ways in which a
line can give a factor, and here the words that are left over are known as well. -/
theorem unit_eq_ok_iff :
    unit command usual unit? words = .ok (f, left) ↔
      words = [] ∧ f = usual ∧ left = [] ∨
        ∃ symbol, words = symbol :: left ∧ unit? symbol = some f := by
  unfold unit
  cases words with
  | nil => simp [eq_comm]
  | cons symbol rest =>
    cases hunit : unit? symbol with
    | none => simp [hunit]
    | some factor =>
      simp only [hunit, Except.ok.injEq, Prod.mk.injEq, reduceCtorEq, false_and, false_or]
      constructor
      · rintro ⟨rfl, rfl⟩
        exact ⟨symbol, rfl, hunit⟩
      · rintro ⟨_, hwords, hfactor⟩
        obtain ⟨rfl, rfl⟩ := List.cons.inj hwords
        exact ⟨Option.some.inj (hunit.symm.trans hfactor), rfl⟩

/-- A factor that is read is what the words give. -/
theorem givesFactor_iff :
    GivesFactor usual unit? words f ↔ ∃ left, unit command usual unit? words = .ok (f, left) := by
  simp only [unit_eq_ok_iff]
  constructor
  · rintro (⟨rfl, rfl⟩ | ⟨symbol, left, rfl, hsymbol⟩)
    · exact ⟨[], .inl ⟨rfl, rfl, rfl⟩⟩
    · exact ⟨left, .inr ⟨symbol, rfl, hsymbol⟩⟩
  · rintro ⟨left, ⟨rfl, rfl, -⟩ | ⟨symbol, rfl, hsymbol⟩⟩
    · exact .inl ⟨rfl, rfl⟩
    · exact .inr ⟨symbol, left, rfl, hsymbol⟩

/-- A number and a unit, both read, are what the line gives. The results about lines speak of
`Gives`, and the results about readers of the right side. -/
theorem gives_iff :
    Gives (command :: words) command usual unit? x f ↔
      ∃ rest left, number command parameter words = .ok (x, rest) ∧
        unit command usual unit? rest = .ok (f, left) := by
  simp only [number_eq_ok]
  constructor
  · rintro ⟨hfinite, word, rest, hwords, hread, hfactor⟩
    obtain ⟨-, rfl⟩ := List.cons.inj hwords
    obtain ⟨left, hunit⟩ := givesFactor_iff.1 hfactor
    exact ⟨rest, left, ⟨word, rfl, hread, hfinite⟩, hunit⟩
  · rintro ⟨rest, left, ⟨word, rfl, hread, hfinite⟩, hunit⟩
    exact ⟨hfinite, word, rest, rfl, hread, givesFactor_iff.2 ⟨left, hunit⟩⟩

/-- A range check fails with its own error, and only if its condition holds. -/
theorem check_eq_error {p : Prop} [Decidable p] {cause : CommandError} {a : α} :
    (if p then do throw cause; pure a else pure a : Parameters α) words = .error e ↔ p ∧ cause = e := by
  by_cases hp : p
  · rw [if_pos hp, bind_eq_error, throw_eq_error]
    constructor
    · rintro (h | ⟨_, _, h, -⟩)
      · exact ⟨hp, h⟩
      · exact absurd h throw_ne_ok
    · exact fun h => .inl h.2
  · rw [if_neg hp]
    exact ⟨fun h => absurd h pure_ne_error, fun h => absurd h.1 hp⟩

/-- The reader of a quantity that has to be positive. Thicknesses and energies are read by it
(`Command.parameters_thickness`, `Command.parameters_energy`), so both are treated at once. -/
def quantity (command parameter constraint : String) (usual : Float) (unit? : String → Option Float)
    (make : Float → Command) : Parameters Command := do
  let value ← number command parameter
  let quantity := value * (← unit command usual unit?)
  if quantity <= 0.0 then throw (.outOfRange command value constraint)
  return make quantity

/-- A quantity that is accepted is the product of what the line gives, and not below or at zero. -/
theorem quantity_eq_ok
    (h : quantity command parameter constraint usual unit? make words = .ok (made, left)) :
    ∃ x f, Gives (command :: words) command usual unit? x f ∧ ¬ x * f ≤ 0.0 ∧ made = make (x * f) := by
  unfold quantity at h
  simp only [bind_eq_ok, check_eq_ok] at h
  obtain ⟨x, rest, hnumber, f, left', hunit, hpos, rfl, -⟩ := h
  exact ⟨x, f, gives_iff.2 ⟨rest, left', hnumber, hunit⟩, hpos, rfl⟩

/-- One that is refused is refused plainly, or for a product that is not positive; the error then
shows the number of the line and not the product. -/
theorem quantity_eq_error
    (h : quantity command parameter constraint usual unit? make words = .error e) :
    e.IsPlain ∨ ∃ x f, Gives (command :: words) command usual unit? x f ∧ x * f ≤ 0.0 ∧
      e = .outOfRange command x constraint := by
  unfold quantity at h
  simp only [bind_eq_error, check_eq_error] at h
  obtain h | ⟨x, rest, hnumber, h | ⟨f, left, hunit, hzero, rfl⟩⟩ := h
  · exact .inl (isPlain_of_number h)
  · exact .inl (isPlain_of_unit h)
  · exact .inr ⟨x, f, gives_iff.2 ⟨rest, left, hnumber, hunit⟩, hzero, rfl⟩

/-- What becomes of a number that the line gives: nothing but the sign of the product decides. -/
theorem quantity_of_gives (parameter constraint : String) (make : Float → Command)
    (h : Gives (command :: words) command usual unit? x f) :
    (x * f ≤ 0.0 → quantity command parameter constraint usual unit? make words =
      .error (.outOfRange command x constraint)) ∧
    (¬ x * f ≤ 0.0 → ∃ left, quantity command parameter constraint usual unit? make words =
      .ok (make (x * f), left)) := by
  obtain ⟨rest, left, hnumber, hunit⟩ := gives_iff.1 h
  unfold quantity
  constructor
  · intro hzero
    exact bind_eq_error.2 (.inr ⟨x, rest, hnumber, bind_eq_error.2 (.inr ⟨f, left, hunit,
      check_eq_error.2 ⟨hzero, rfl⟩⟩)⟩)
  · intro hpos
    exact ⟨left, bind_eq_ok.2 ⟨x, rest, hnumber, bind_eq_ok.2 ⟨f, left, hunit,
      check_eq_ok.2 ⟨hpos, rfl, rfl⟩⟩⟩⟩

end Quantity

end Parameters

/-! ## Lines

The command word decides which reader comes next. The proofs go through the command words once for
the accepted lines and once for the errors; every case is one of the lemmas above. -/

namespace Command

open Parameters

/-- Thicknesses are quantities. -/
theorem parameters_thickness : parameters "/beamscan/target/thickness" =
    quantity "/beamscan/target/thickness" "t" "t>0." Unit.mm Unit.length? .targetThickness := rfl

/-- Energies are quantities. -/
theorem parameters_energy : parameters "/gun/energy" =
    quantity "/gun/energy" "energy" "energy>0." Unit.gev Unit.energy? .gunEnergy := rfl

/-- The factors that lines give are among those that the range lemmas speak of. -/
theorem isFactor_of_givesFactor {usual f : Float} {unit? : String → Option Float}
    {rest : List String} (husual : Unit.IsFactor usual)
    (hunit : ∀ {symbol factor}, unit? symbol = some factor → Unit.IsFactor factor)
    (h : GivesFactor usual unit? rest f) : Unit.IsFactor f := by
  obtain ⟨-, rfl⟩ | ⟨symbol, left, -, hsymbol⟩ := h
  · exact husual
  · exact hunit hsymbol

/-- So is the factor of a quantity that a line gives. -/
theorem isFactor_of_gives {words : List String} {command : String} {usual x f : Float}
    {unit? : String → Option Float} (husual : Unit.IsFactor usual)
    (hunit : ∀ {symbol factor}, unit? symbol = some factor → Unit.IsFactor factor)
    (h : Gives words command usual unit? x f) : Unit.IsFactor f := by
  obtain ⟨-, word, rest, -, -, hfactor⟩ := h
  exact isFactor_of_givesFactor husual hunit hfactor

/-- The millimetre, which a thickness without a unit is in, is itself a unit of length. -/
theorem isFactor_of_givesThickness {words : List String} {x f : Float}
    (h : GivesThickness words x f) : Unit.IsFactor f :=
  isFactor_of_gives (.inr (.inl rfl)) Unit.isFactor_of_length h

/-- An energy without a unit is in the greatest of its units. -/
theorem isFactor_of_givesEnergy {words : List String} {x f : Float} (h : GivesEnergy words x f) :
    Unit.IsFactor f :=
  isFactor_of_gives (.inr (.inr (.inr rfl))) Unit.isFactor_of_energy h

/-- What is promised of an accepted product. -/
theorem usable_product {x f : Float} (hx : x.isFinite = true) (hf : Unit.IsFactor f)
    (h : ¬ x * f ≤ 0.0) :
    0.0 < x * f ∧ ((x * f).isFinite = true ↔ ¬ Unit.Overflows x f) :=
  ⟨(not_le_zero_iff_pos (isRounded_mul hx hf.finite_pos.1).isNaN).1 h, Unit.isFinite_mul_iff hx hf⟩

/-- A command carries what its line gives. The cases are those of the command words, and in each the
readers are taken apart by their laws. -/
theorem usable_of_parameters {command : String} {words left : List String} {c : Command}
    (h : parameters command words = .ok (c, left)) : c.Usable (command :: words) := by
  unfold parameters at h
  split at h
  case h_2 => -- the thickness
    change quantity _ "t" "t>0." Unit.mm Unit.length? .targetThickness words = _ at h
    obtain ⟨x, f, hgives, hpos, rfl⟩ := quantity_eq_ok h
    have hf := isFactor_of_givesThickness hgives
    exact ⟨x, f, hgives, rfl, usable_product hgives.1 hf hpos⟩
  case h_4 => -- the field
    simp only [bind_eq_ok, check_eq_ok] at h
    obtain ⟨b, rest, hnumber, hnonneg, rfl, -⟩ := h
    obtain ⟨word, rfl, hread, hfinite⟩ := number_eq_ok.1 hnumber
    exact ⟨⟨hfinite, word, rest, rfl, hread⟩, hfinite,
      le_of_not_lt (isNaN_of_isFinite hfinite) exactly_zero.isNaN hnonneg⟩
  case h_5 => -- the particle
    obtain ⟨word, _, -, hparticle⟩ := bind_eq_ok.1 h
    cases hfound : Particle.ofName? word with
    | none => simp only [hfound, throw_ne_ok] at hparticle
    | some particle =>
      simp only [hfound, pure_eq_ok] at hparticle
      obtain ⟨rfl, -⟩ := hparticle
      trivial
  case h_6 => -- the energy
    change quantity _ "energy" "energy>0." Unit.gev Unit.energy? .gunEnergy words = _ at h
    obtain ⟨x, f, hgives, hpos, rfl⟩ := quantity_eq_ok h
    have hf := isFactor_of_givesEnergy hgives
    exact ⟨x, f, hgives, rfl, usable_product hgives.1 hf hpos⟩
  case h_7 => -- the direction
    simp only [bind_eq_ok, check_eq_ok] at h
    obtain ⟨d, rest, hvector, -, rfl, -⟩ := h
    have hgives := givesVector_iff.2 hvector
    exact ⟨⟨rest, hgives⟩, hgives.1⟩
  case h_8 => -- the position
    simp only [bind_eq_ok, pure_eq_ok] at h
    obtain ⟨v, rest, hvector, f, left', hunit, rfl, -⟩ := h
    have hgives := givesVector_iff.2 hvector
    have hfactor := givesFactor_iff.2 ⟨left', hunit⟩
    have hv := hgives.1
    have hf := isFactor_of_givesFactor (.inr (.inr (.inl rfl))) Unit.isFactor_of_length hfactor
    refine ⟨v, f, ⟨rest, hgives, hfactor⟩, hf, rfl, ?_⟩
    rw [← Unit.isFinite_mul_iff hv.1 hf, ← Unit.isFinite_mul_iff hv.2.1 hf,
      ← Unit.isFinite_mul_iff hv.2.2 hf]
    rfl
  case h_11 => -- the number of events
    obtain ⟨word, _, -, hevents⟩ := bind_eq_ok.1 h
    cases hcount : readUnsigned? word.toList with
    | none => simp only [hcount, throw_ne_ok] at hevents
    | some events =>
      simp only [hcount, pure_eq_ok] at hevents
      obtain ⟨rfl, -⟩ := hevents
      trivial
  case h_16 => exact absurd h throw_ne_ok
  -- the other commands carry no number
  case h_1 | h_3 | h_9 =>
    simp only [bind_eq_ok, pure_eq_ok] at h
    obtain ⟨_, _, -, rfl, -⟩ := h
    trivial
  all_goals
    obtain ⟨rfl, -⟩ := pure_eq_ok.1 h
    trivial

/-- A range error is about a number that its line gives. Only the three commands with a range can
have one. -/
theorem justified_of_parameters {command : String} {words : List String} {e : CommandError}
    (h : parameters command words = .error e) : e.Justified (command :: words) := by
  have hplain : e.IsPlain → e.Justified (command :: words) := fun h => h.justified _
  unfold parameters at h
  split at h
  case h_2 => -- the thickness
    change quantity _ "t" "t>0." Unit.mm Unit.length? .targetThickness words = _ at h
    obtain h | ⟨x, f, hgives, hzero, rfl⟩ := quantity_eq_error h
    · exact hplain h
    · have hf := isFactor_of_givesThickness hgives
      exact ⟨hgives.1, .inr ⟨f, .inl hgives, (Unit.mul_le_zero_iff hgives.1 hf).1 hzero⟩⟩
  case h_4 => -- the field
    simp only [bind_eq_error, check_eq_error] at h
    obtain h | ⟨b, rest, hnumber, hnegative, rfl⟩ := h
    · exact hplain (isPlain_of_number h)
    · obtain ⟨word, rfl, hread, hfinite⟩ := number_eq_ok.1 hnumber
      exact ⟨hfinite, .inl ⟨rfl, ⟨hfinite, word, rest, rfl, hread⟩, hnegative⟩⟩
  case h_5 => -- the particle
    obtain h | ⟨word, _, -, hparticle⟩ := bind_eq_error.1 h
    · exact hplain (isPlain_of_next h)
    · cases hfound : Particle.ofName? word with
      | none =>
        simp only [hfound] at hparticle
        obtain rfl := throw_eq_error.1 hparticle
        trivial
      | some particle =>
        simp only [hfound] at hparticle
        exact absurd hparticle pure_ne_error
  case h_6 => -- the energy
    change quantity _ "energy" "energy>0." Unit.gev Unit.energy? .gunEnergy words = _ at h
    obtain h | ⟨x, f, hgives, hzero, rfl⟩ := quantity_eq_error h
    · exact hplain h
    · have hf := isFactor_of_givesEnergy hgives
      exact ⟨hgives.1, .inr ⟨f, .inr hgives, (Unit.mul_le_zero_iff hgives.1 hf).1 hzero⟩⟩
  case h_7 => -- the direction
    simp only [bind_eq_error, check_eq_error] at h
    obtain h | ⟨d, rest, -, -, rfl⟩ := h
    · exact hplain (isPlain_of_vector h)
    · trivial
  case h_8 => -- the position
    simp only [bind_eq_error, pure_ne_error, and_false, exists_false, or_false] at h
    obtain h | ⟨v, rest, -, h⟩ := h
    · exact hplain (isPlain_of_vector h)
    · exact hplain (isPlain_of_unit h)
  case h_11 => -- the number of events
    obtain h | ⟨word, _, -, hevents⟩ := bind_eq_error.1 h
    · exact hplain (isPlain_of_next h)
    · cases hcount : readUnsigned? word.toList with
      | none =>
        simp only [hcount] at hevents
        obtain rfl := throw_eq_error.1 hevents
        trivial
      | some events =>
        simp only [hcount] at hevents
        exact absurd hevents pure_ne_error
  case h_16 => -- an unknown word
    obtain rfl := throw_eq_error.1 h
    trivial
  case h_3 => -- the magnet
    simp only [bind_eq_error, pure_ne_error, and_false, exists_false, or_false] at h
    exact hplain (isPlain_of_switch h)
  -- the other commands carry no number
  case h_1 | h_9 =>
    simp only [bind_eq_error, pure_ne_error, and_false, exists_false, or_false] at h
    exact hplain (isPlain_of_next h)
  all_goals exact absurd h pure_ne_error

/-- A positive quantity is accepted unless it vanishes, and if it vanishes it is refused with the
number of the line. -/
theorem ofWords_of_gives {words : List String} {command parameter constraint : String}
    {usual x f : Float} {unit? : String → Option Float} {make : Float → Command}
    (hreader : parameters command = quantity command parameter constraint usual unit? make)
    (h : Gives words command usual unit? x f) (hf : Unit.IsFactor f) (hpos : 0.0 < x) :
    (Unit.Vanishes x f → ofWords words = .error (.outOfRange command x constraint)) ∧
    (¬ Unit.Vanishes x f → ofWords words = .ok (make (x * f))) := by
  have hzero := Unit.mul_le_zero_iff h.1 hf
  rw [or_iff_right ((not_le_zero_iff_pos (isNaN_of_isFinite h.1)).2 hpos)] at hzero
  obtain ⟨rest, rfl⟩ : ∃ rest, words = command :: rest := by
    obtain ⟨-, word, rest, hwords, -⟩ := h
    exact ⟨_, hwords⟩
  obtain ⟨hrefused, haccepted⟩ := quantity_of_gives parameter constraint make h
  constructor
  · intro hvanishes
    rw [ofWords, hreader, hrefused (hzero.2 hvanishes)]
    rfl
  · intro hstays
    obtain ⟨left, hread⟩ := haccepted (hzero.not.2 hstays)
    exact ofWords_cons_eq_ok.2 ⟨left, hreader ▸ hread⟩

/-- **What the numbers of an accepted command are, and of one that is refused for its range.** Signs are
kept and every number is finite, except that a product with a unit can be infinite or vanish; and a
positive number is accepted unless it vanishes. -/
theorem usable_ofLine (line : List Char) :
    (∀ c, ofLine line = .ok c → c.Usable ((Text.words line).map String.ofList)) ∧
    (∀ e, ofLine line = .error e → e.Justified ((Text.words line).map String.ofList)) ∧
    (∀ x f, GivesThickness ((Text.words line).map String.ofList) x f → 0.0 < x →
      (Unit.Vanishes x f → ofLine line = .error (.outOfRange "/beamscan/target/thickness" x "t>0.")) ∧
      (¬ Unit.Vanishes x f → ofLine line = .ok (.targetThickness (x * f)))) ∧
    ∀ x f, GivesEnergy ((Text.words line).map String.ofList) x f → 0.0 < x →
      (Unit.Vanishes x f → ofLine line = .error (.outOfRange "/gun/energy" x "energy>0.")) ∧
      (¬ Unit.Vanishes x f → ofLine line = .ok (.gunEnergy (x * f))) := by
  -- from here on a line is its words
  obtain ⟨words, hwords⟩ : ∃ words, (Text.words line).map String.ofList = words := ⟨_, rfl⟩
  unfold ofLine
  rw [hwords]
  refine ⟨fun c h => ?_, fun e h => ?_, fun x f h hpos => ?_, fun x f h hpos => ?_⟩
  · cases words with
    | nil => exact nomatch h
    | cons command rest =>
      obtain ⟨left, hread⟩ := ofWords_cons_eq_ok.1 h
      exact usable_of_parameters hread
  · cases words with
    | nil =>
      obtain rfl := Except.error.inj h
      trivial
    | cons command rest =>
      cases hread : parameters command rest with
      | ok r =>
        rw [ofWords, hread] at h
        exact nomatch h
      | error cause =>
        rw [ofWords, hread] at h
        obtain rfl := Except.error.inj h
        exact justified_of_parameters hread
  · exact ofWords_of_gives parameters_thickness h (isFactor_of_givesThickness h) hpos
  · exact ofWords_of_gives parameters_energy h (isFactor_of_givesEnergy h) hpos

end Command

end Telescope
