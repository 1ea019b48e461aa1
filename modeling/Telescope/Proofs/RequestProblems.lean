import Mathlib.Data.List.Basic
import Mathlib.Data.Set.Card
import Telescope.Proofs.Doubles
import Telescope.Proofs.NumberText
import Telescope.Scan.Request

/-!
# What is reported about a request

A request is checked at a number of places, one after the other, and each of them has one rule. The
list of problems is described here by the rules alone:

* `Request.Violates` says what it means that a rule is broken, without the checks, and
  `mem_problems_iff`: exactly the broken rules are reported;
* `Place.Before` is the order of the places, and `pairwise_problems`: the problems come in this order,
  so none comes twice;
* `Place.text_inj`: no two places have one text, so a message tells where its problem is.

There is only one list with these properties (`problems_report`). A request without problems is one
that is sound in every respect (`problems_eq_nil_iff`).

The list of problems could be described by following the checks. That would say the same as the
checks, and share their mistakes. Instead the three properties are said that a report should have,
and that they leave no choice.
-/

namespace Telescope

/-- The catalog has the materials that it has names of. -/
theorem Catalog.contains_iff {catalog : Catalog} {name : String} :
    catalog.contains name = true ↔ name ∈ catalog.names := by
  simp [contains, find?, names, List.find?_isSome]

namespace Scan

open Text (not_mem_intercalate)

/-! ## Places

A place is what a message starts with. Places are compared as the checks come, and numbers of
targets and momenta as numbers: the tenth target comes after the ninth. -/

/-- A place of a request where something can be wrong; targets and momenta are counted from zero. -/
inductive Place
  /-- the list of targets -/
  | targets
  /-- the name of a target -/
  | name (target : Nat)
  /-- the material of a target -/
  | material (target : Nat)
  /-- the thickness of a target -/
  | thickness (target : Nat)
  /-- the species of the beam -/
  | particle
  /-- the list of momenta -/
  | momenta
  /-- a momentum -/
  | momentum (index : Nat)
  /-- the number of events -/
  | events
deriving DecidableEq, Repr

namespace Place

/-- The names on the way to a place, from the outside in. -/
def way : Place → List String
  | .targets => ["materials"]
  | .name i => ["materials", toString i, "name"]
  | .material i => ["materials", toString i, "geant4_name"]
  | .thickness i => ["materials", toString i, "thickness_mm"]
  | .particle => ["beam", "particle"]
  | .momenta => ["beam", "momenta_GeV"]
  | .momentum i => ["beam", "momenta_GeV", toString i]
  | .events => ["beam", "num_events"]

/-- The text of a place, as it stands in front of a message. -/
def text (place : Place) : String := ".".intercalate place.way

/-- The check to which a place belongs; those of the targets are one, and so are those of the momenta. -/
def check : Place → Nat
  | .targets => 0
  | .name _ | .material _ | .thickness _ => 1
  | .particle => 2
  | .momenta => 3
  | .momentum _ => 4
  | .events => 5

/-- The number of the target or the momentum. -/
def index : Place → Nat
  | .name i | .material i | .thickness i | .momentum i => i
  | _ => 0

/-- Which field of a target it is. -/
def field : Place → Nat
  | .material _ => 1
  | .thickness _ => 2
  | _ => 0

/-- The order in which places are checked: target by target, and every target field by field. -/
def Before (p q : Place) : Prop :=
  p.check < q.check ∨ p.check = q.check ∧
    (p.index < q.index ∨ p.index = q.index ∧ p.field < q.field)

/-- No two places are before each other. -/
theorem Before.asymm {p q : Place} (h : p.Before q) : ¬ q.Before p := by
  unfold Before at *
  omega

/-- No place is before itself. -/
theorem Before.ne {p q : Place} (h : p.Before q) : p ≠ q := by
  rintro rfl
  exact h.asymm h

/-! ### Texts -/

/-- The names on the way have neither points nor colons. -/
theorem not_mem_way {p : Place} {mark : Char} (hmark : mark = '.' ∨ mark = ':') :
    ∀ word ∈ p.way, mark ∉ word.toList := by
  have hnumber : ∀ n : Nat, mark ∉ (toString n).toList := by
    intro n hmem
    rw [Nat.toString_eq_repr, Nat.toList_repr] at hmem
    have hdigit := isDigit_of_mem_toDigits hmem
    obtain rfl | rfl := hmark <;> exact absurd hdigit (by decide)
  have hword : ∀ word ∈ ["materials", "name", "geant4_name", "thickness_mm", "beam", "particle",
      "momenta_GeV", "num_events"], mark ∉ word.toList := by
    obtain rfl | rfl := hmark <;> decide
  cases p <;> simp_all [way]

/-- The text of a place is the way to it, with points between the names. -/
theorem toList_text (p : Place) : p.text.toList = ['.'].intercalate (p.way.map String.toList) :=
  String.toList_intercalate

/-- The way to a place is read off its text, since no name on it has a point. -/
theorem splitOn_text (p : Place) : p.text.toList.splitOn '.' = p.way.map String.toList := by
  rw [toList_text]
  refine List.splitOn_intercalate '.' (fun word hword => ?_) ?_
  · obtain ⟨w, hw, rfl⟩ := List.mem_map.1 hword
    exact not_mem_way (.inl rfl) w hw
  · cases p <;> simp [way]

/-- Two places with one way are the same: the numbers on it have one text each. -/
theorem way_inj {p q : Place} (h : p.way = q.way) : p = q := by
  cases p <;> cases q <;> simp_all [way, Nat.toString_eq_repr, Nat.repr_inj]

/-- A place has no colon in its text, so the first colon of a message ends it. -/
theorem colon_not_mem_text (p : Place) : ':' ∉ p.text.toList := by
  rw [toList_text]
  refine not_mem_intercalate (by decide) fun word hword => ?_
  obtain ⟨w, hw, rfl⟩ := List.mem_map.1 hword
  exact not_mem_way (.inr rfl) w hw

/-- **Every place has a text of its own.** -/
theorem text_inj {p q : Place} : p.text = q.text ↔ p = q := by
  refine ⟨fun h => way_inj ?_, congrArg text⟩
  have hway := p.splitOn_text
  rw [h, splitOn_text] at hway
  exact (List.map_injective_iff.2 (fun _ _ => String.toList_inj.1) hway).symm

end Place

/-! ## Problems

A problem has what is needed for its message, which is more than its place. Two different problems
at one place can only come from different requests. -/

namespace Problem

/-- The place to which a problem belongs. -/
def place : Problem → Place
  | .noTarget => .targets
  | .blankName i => .name i
  | .unknownMaterial i _ => .material i
  | .noThickness i _ => .thickness i
  | .unknownParticle _ => .particle
  | .noMomentum => .momenta
  | .badMomentum i _ => .momentum i
  | .noEvents => .events

/-- What is wrong at the place of a problem. -/
def complaint : Problem → String
  | .noTarget => "at least one material is required"
  | .blankName _ => "must not be empty"
  | .unknownMaterial _ material => "unknown material " ++ Text.quote material
  | .noThickness _ x | .badMomentum _ x => NumberStyle.plain.write x ++ " is not > 0"
  | .unknownParticle particle => Particle.unknownMessage particle
  | .noMomentum => "at least one momentum is required"
  | .noEvents => "must be at least 1"

/-- A message is the place of its problem and what is wrong there. -/
theorem message_eq (p : Problem) : p.message = p.place.text ++ ": " ++ p.complaint := by
  unfold message place complaint Place.text Place.way
  refine String.toList_inj.1 ?_
  cases p <;> simp

/-- What stands in front of the first colon of a message is the place. -/
theorem takeWhile_message (p : Problem) :
    p.message.toList.takeWhile (· != ':') = p.place.text.toList := by
  have hcolon : ∀ c ∈ p.place.text.toList, (c != ':') = true := by
    intro c hc
    rw [bne_iff_ne]
    rintro rfl
    exact p.place.colon_not_mem_text hc
  rw [message_eq, String.toList_append, String.toList_append, List.append_assoc,
    List.takeWhile_append_of_pos hcolon]
  simp

/-- **Problems with one message are at one place.** -/
theorem place_of_message {p q : Problem} (h : p.message = q.message) : p.place = q.place := by
  rw [← Place.text_inj, ← String.toList_inj, ← takeWhile_message, ← takeWhile_message, h]

end Problem

/-! ## Rules

The rules are said as one would to the author of a request. A number is positive or it is not; NaN
is no number and breaks the rule. -/

namespace Request

variable {catalog : Catalog} {request : Request} {p q : Problem}

/-- A rule is broken, and this is the problem. A number is above zero or not; NaN is not. -/
inductive Violates (catalog : Catalog) (request : Request) : Problem → Prop
  /-- there has to be a target -/
  | noTarget (h : request.targets = []) : Violates catalog request .noTarget
  /-- the name of a target has to have more than blanks -/
  | blankName {i : Nat} {t : Target} (ht : request.targets[i]? = some t)
      (h : ¬ Text.Filled t.name.toList) : Violates catalog request (.blankName i)
  /-- the catalog has to know its material -/
  | unknownMaterial {i : Nat} {t : Target} (ht : request.targets[i]? = some t)
      (h : t.material ∉ catalog.names) : Violates catalog request (.unknownMaterial i t.material)
  /-- its thickness has to be positive -/
  | noThickness {i : Nat} {t : Target} (ht : request.targets[i]? = some t)
      (h : t.thickness.isNaN = true ∨ t.thickness ≤ 0.0) :
      Violates catalog request (.noThickness i t.thickness)
  /-- some species has to have the name that is given -/
  | unknownParticle (h : ∀ particle : Particle, particle.name ≠ request.beam.particle) :
      Violates catalog request (.unknownParticle request.beam.particle)
  /-- there has to be a momentum -/
  | noMomentum (h : request.beam.momenta = []) : Violates catalog request .noMomentum
  /-- every momentum has to be positive -/
  | badMomentum {i : Nat} {m : Float} (hm : request.beam.momenta[i]? = some m)
      (h : m.isNaN = true ∨ m ≤ 0.0) : Violates catalog request (.badMomentum i m)
  /-- there has to be an event -/
  | noEvents (h : request.beam.events = 0) : Violates catalog request .noEvents

/-- No species is found exactly if none has the name. -/
theorem particle?_eq_none_iff :
    request.particle? = none ↔ ∀ particle : Particle, particle.name ≠ request.beam.particle := by
  simp [particle?, Particle.ofName?, Particle.mem_all]

/-- The problems of a target are the rules that it breaks. They are checked one by one, whatever the
others say. -/
theorem mem_targetProblems_iff {t : Target} {i : Nat} :
    p ∈ t.problems catalog i ↔
      (¬ Text.Filled t.name.toList ∧ p = .blankName i ∨
        t.material ∉ catalog.names ∧ p = .unknownMaterial i t.material) ∨
          (t.thickness.isNaN = true ∨ t.thickness ≤ 0.0) ∧ p = .noThickness i t.thickness := by
  simp only [Target.problems, List.mem_append, List.mem_ite_nil_right, List.mem_ite_nil_left,
    List.mem_singleton, List.isEmpty_iff, Text.trim_eq_nil_iff, Catalog.contains_iff, gt_iff_lt,
    Double.not_pos_iff]

/-- A momentum has a problem exactly if it is not positive. -/
theorem mem_momentumProblems_iff {m : Float} {i : Nat} :
    p ∈ momentumProblems m i ↔ (m.isNaN = true ∨ m ≤ 0.0) ∧ p = .badMomentum i m := by
  simp only [momentumProblems, List.mem_ite_nil_left, List.mem_singleton, gt_iff_lt,
    Double.not_pos_iff]

/-- **Exactly the broken rules are reported.** The list is put together of one part for each check,
and a problem is in the part that its rule belongs to. -/
theorem mem_problems_iff : p ∈ request.problems catalog ↔ request.Violates catalog p := by
  simp only [problems, List.mem_append, List.mem_flatMap, Prod.exists,
    List.mem_zipIdx_iff_getElem?, List.mem_ite_nil_right, List.mem_singleton, List.isEmpty_iff,
    Option.isNone_iff_eq_none, particle?_eq_none_iff, mem_targetProblems_iff,
    mem_momentumProblems_iff]
  constructor
  · -- the checks stand in a row, in the order of the report
    rintro (((((⟨h, rfl⟩ | ⟨t, i, ht, hp⟩) | ⟨h, rfl⟩) | ⟨h, rfl⟩) | ⟨m, i, hm, h, rfl⟩) | ⟨h, rfl⟩)
    · exact .noTarget h
    · obtain (⟨h, rfl⟩ | ⟨h, rfl⟩) | ⟨h, rfl⟩ := hp
      · exact .blankName ht h
      · exact .unknownMaterial ht h
      · exact .noThickness ht h
    · exact .unknownParticle h
    · exact .noMomentum h
    · exact .badMomentum hm h
    · exact .noEvents h
  · intro hp
    cases hp with
    | noTarget h => simp [h]
    | blankName ht h =>
      exact .inl (.inl (.inl (.inl (.inr ⟨_, _, ht, .inl (.inl ⟨h, rfl⟩)⟩))))
    | unknownMaterial ht h =>
      exact .inl (.inl (.inl (.inl (.inr ⟨_, _, ht, .inl (.inr ⟨h, rfl⟩)⟩))))
    | noThickness ht h => exact .inl (.inl (.inl (.inl (.inr ⟨_, _, ht, .inr ⟨h, rfl⟩⟩))))
    | unknownParticle h => exact .inl (.inl (.inl (.inr ⟨h, rfl⟩)))
    | noMomentum h => exact .inl (.inl (.inr ⟨h, rfl⟩))
    | badMomentum hm h => exact .inl (.inr ⟨_, _, hm, h, rfl⟩)
    | noEvents h => exact .inr ⟨h, rfl⟩

/-! ## Order

The problems are a part of the list of all places, in its order. So it is enough that this list is
in order. -/

/-- The places of one check, in order. -/
def checked (request : Request) : Nat → List Place
  | 0 => [.targets]
  | 1 => (List.range request.targets.length).flatMap fun i => [.name i, .material i, .thickness i]
  | 2 => [.particle]
  | 3 => [.momenta]
  | 4 => (List.range request.beam.momenta.length).flatMap fun i => [.momentum i]
  | 5 => [.events]
  | _ => []

/-- All places of a request in the order in which they are checked. -/
def places (request : Request) : List Place := (List.range 6).flatMap request.checked

/-- The places of a check belong to it. -/
theorem check_of_mem_checked {k : Nat} {p : Place} (h : p ∈ request.checked k) : p.check = k := by
  match k with
  | 0 | 2 | 3 | 5 =>
    obtain rfl := List.mem_singleton.1 h
    rfl
  | 1 =>
    obtain ⟨i, -, hi⟩ := List.mem_flatMap.1 h
    simp only [List.mem_cons, List.not_mem_nil, or_false] at hi
    obtain rfl | rfl | rfl := hi <;> rfl
  | 4 =>
    obtain ⟨i, -, hi⟩ := List.mem_flatMap.1 h
    obtain rfl := List.mem_singleton.1 hi
    rfl
  | _ + 6 => exact absurd h List.not_mem_nil

/-- Rows are in order if each of them is and they come one after the other. -/
theorem pairwise_flatMap_range {n : Nat} {f : Nat → List Place}
    (hrow : ∀ i, (f i).Pairwise Place.Before)
    (hrows : ∀ i j, i < j → ∀ p ∈ f i, ∀ q ∈ f j, p.Before q) :
    ((List.range n).flatMap f).Pairwise Place.Before :=
  List.pairwise_flatMap.2 ⟨fun i _ => hrow i, List.pairwise_lt_range.imp (hrows _ _)⟩

/-- The places of a check are in order. -/
theorem pairwise_checked (k : Nat) : (request.checked k).Pairwise Place.Before := by
  match k with
  | 0 | 2 | 3 | 5 => exact List.pairwise_singleton _ _
  | 1 =>
    refine pairwise_flatMap_range (fun i => ?_) fun i j hij => ?_
    · simp [Place.Before, Place.check, Place.index, Place.field]
    · simp [Place.Before, Place.check, Place.index, hij]
  | 4 =>
    refine pairwise_flatMap_range (fun i => List.pairwise_singleton _ _) fun i j hij => ?_
    simp [Place.Before, Place.check, Place.index, hij]
  | _ + 6 => exact .nil

/-- All places are in order, since the checks are. -/
theorem pairwise_places (request : Request) : request.places.Pairwise Place.Before := by
  refine pairwise_flatMap_range pairwise_checked fun i j hij p hp q hq => .inl ?_
  rw [check_of_mem_checked hp, check_of_mem_checked hq]
  exact hij

/-- A rule is reported at its place or not at all. -/
theorem sublist_singleton {c : Prop} [Decidable c] (p : Problem) :
    ((if c then [p] else []).map Problem.place).Sublist [p.place] ∧
      ((if c then [] else [p]).map Problem.place).Sublist [p.place] := by
  constructor <;> split <;> simp

/-- Elements of a list are checked by their numbers. -/
theorem sublist_flatMap_range {α : Type} {xs : List α} {f : α → Nat → List Problem}
    {g : Nat → List Place} (h : ∀ x i, ((f x i).map Problem.place).Sublist (g i)) :
    ((xs.zipIdx.flatMap fun (x, i) => f x i).map Problem.place).Sublist
      ((List.range xs.length).flatMap g) := by
  have hnumbers : List.range xs.length = xs.zipIdx.map Prod.snd := by
    rw [List.zipIdx_map_snd, List.range_eq_range']
  rw [List.map_flatMap, hnumbers, List.flatMap_map]
  exact List.Sublist.flatMap_right _ fun x _ => h x.1 x.2

/-- **Every place is reported once at most,** in the order of the places. Each check leaves out the
places where nothing is wrong, and adds none. -/
theorem sublist_places (catalog : Catalog) (request : Request) :
    ((request.problems catalog).map Problem.place).Sublist request.places := by
  have hplaces : request.places = request.checked 0 ++ request.checked 1 ++ request.checked 2 ++
      request.checked 3 ++ request.checked 4 ++ request.checked 5 := by
    simp [places, List.range_succ]
  have htarget : ∀ (t : Target) (i : Nat), ((t.problems catalog i).map Problem.place).Sublist
      [.name i, .material i, .thickness i] := by
    intro t i
    simp only [Target.problems, List.map_append]
    exact ((sublist_singleton _).1.append (sublist_singleton _).2).append (sublist_singleton _).2
  have hmomentum : ∀ (m : Float) (i : Nat),
      ((momentumProblems m i).map Problem.place).Sublist [.momentum i] :=
    fun m i => (sublist_singleton _).2
  rw [hplaces]
  simp only [problems, List.map_append]
  exact (((((sublist_singleton _).1.append (sublist_flatMap_range htarget)).append
    (sublist_singleton _).1).append (sublist_singleton _).1).append
    (sublist_flatMap_range hmomentum)).append (sublist_singleton _).1

/-- The problems come in the order of their places. -/
theorem pairwise_problems (catalog : Catalog) (request : Request) :
    (request.problems catalog).Pairwise fun p q => p.place.Before q.place :=
  List.pairwise_map.1 ((pairwise_places request).sublist (sublist_places catalog request))

/-- No place is reported twice. -/
theorem nodup_places (catalog : Catalog) (request : Request) :
    ((request.problems catalog).map Problem.place).Nodup :=
  (List.pairwise_map.2 (pairwise_problems catalog request)).imp Place.Before.ne

/-- Two lists of the same problems in the order of their places are one. -/
theorem eq_of_pairwise {ps qs : List Problem} (hps : ps.Pairwise fun p q => p.place.Before q.place)
    (hqs : qs.Pairwise fun p q => p.place.Before q.place) (h : ∀ p, p ∈ ps ↔ p ∈ qs) : ps = qs := by
  have hnodup : ∀ {rs : List Problem}, (rs.Pairwise fun p q => p.place.Before q.place) → rs.Nodup :=
    fun hrs => hrs.imp fun hbefore heq => hbefore.ne (congrArg Problem.place heq)
  have hperm : ps.Perm qs := (List.perm_ext_iff_of_nodup (hnodup hps) (hnodup hqs)).2 h
  exact hperm.eq_of_pairwise (fun _ _ _ _ hpq hqp => absurd hqp hpq.asymm) hps hqs

/-! ## Sound requests

A sound request is what the rest of a scan relies on. What was checked once is taken from here and
not checked again. -/

/-- Every rule is kept. -/
structure Sound (catalog : Catalog) (request : Request) : Prop where
  /-- there is a target -/
  targets : request.targets ≠ []
  /-- every target has a name -/
  name : ∀ t ∈ request.targets, Text.Filled t.name.toList
  /-- and a known material -/
  material : ∀ t ∈ request.targets, t.material ∈ catalog.names
  /-- and a thickness -/
  thickness : ∀ t ∈ request.targets, 0.0 < t.thickness
  /-- the beam has a species -/
  particle : ∃ particle : Particle, particle.name = request.beam.particle
  /-- there is a momentum -/
  momenta : request.beam.momenta ≠ []
  /-- every momentum is positive -/
  momentum : ∀ m ∈ request.beam.momenta, 0.0 < m
  /-- and there is an event -/
  events : request.beam.events ≠ 0

/-- The species of a sound request is found. -/
theorem Sound.exists_particle? (h : request.Sound catalog) :
    ∃ particle, request.particle? = some particle := by
  obtain ⟨particle, hname⟩ := h.particle
  exact ⟨particle, by rw [particle?, ← hname, Particle.ofName?_name]⟩

/-- **A request without problems is sound in every respect,** and conversely. What a later step
relies on is taken from the one side, and what was checked from the other. -/
theorem problems_eq_nil_iff : request.problems catalog = [] ↔ request.Sound catalog := by
  rw [List.eq_nil_iff_forall_not_mem]
  simp only [mem_problems_iff]
  constructor
  · intro h
    refine ⟨fun hnone => h _ (.noTarget hnone), fun t ht => ?_, fun t ht => ?_, fun t ht => ?_, ?_,
      fun hnone => h _ (.noMomentum hnone), fun m hm => ?_, fun hnone => h _ (.noEvents hnone)⟩
    · -- a target that breaks a rule has a number in the list, which the rule needs
      by_contra hblank
      obtain ⟨i, hi⟩ := List.mem_iff_getElem?.1 ht
      exact h _ (.blankName hi hblank)
    · by_contra hunknown
      obtain ⟨i, hi⟩ := List.mem_iff_getElem?.1 ht
      exact h _ (.unknownMaterial hi hunknown)
    · by_contra hthin
      obtain ⟨i, hi⟩ := List.mem_iff_getElem?.1 ht
      exact h _ (.noThickness hi (Double.not_pos_iff.1 hthin))
    · by_contra hunknown
      exact h _ (.unknownParticle fun particle hname => hunknown ⟨particle, hname⟩)
    · by_contra hbad
      obtain ⟨i, hi⟩ := List.mem_iff_getElem?.1 hm
      exact h _ (.badMomentum hi (Double.not_pos_iff.1 hbad))
  · intro h p hp
    cases hp with
    | noTarget hnone => exact h.targets hnone
    | blankName ht hblank => exact hblank (h.name _ (List.mem_of_getElem? ht))
    | unknownMaterial ht hunknown => exact hunknown (h.material _ (List.mem_of_getElem? ht))
    | noThickness ht hthin =>
      exact Double.not_pos_iff.2 hthin (h.thickness _ (List.mem_of_getElem? ht))
    | unknownParticle hunknown =>
      obtain ⟨particle, hname⟩ := h.particle
      exact hunknown particle hname
    | noMomentum hnone => exact h.momenta hnone
    | badMomentum hm hbad => exact Double.not_pos_iff.2 hbad (h.momentum _ (List.mem_of_getElem? hm))
    | noEvents hnone => exact h.events hnone

/-! ## The report -/

/-- **The problems of a request are the rules that it breaks, each of them once, in the order of their
places;** and there is only one such list. It is empty just if the request is sound, it is as long as
there are broken rules, and its messages differ, since each names the place where its rule is broken. -/
theorem problems_report (catalog : Catalog) (request : Request) :
    (∀ ps : List Problem, ps = request.problems catalog ↔
      (ps.Pairwise fun p q => p.place.Before q.place) ∧
        ∀ p, p ∈ ps ↔ request.Violates catalog p) ∧
    (request.problems catalog = [] ↔ request.Sound catalog) ∧
    (request.problems catalog).length = {p | request.Violates catalog p}.ncard ∧
    ((request.problems catalog).map Problem.message).Nodup ∧
    ∀ p : Problem, p.message = p.place.text ++ ": " ++ p.complaint := by
  have horder := pairwise_problems catalog request
  refine ⟨fun ps => ⟨?_, fun ⟨hps, hmem⟩ => ?_⟩, problems_eq_nil_iff, ?_, ?_, Problem.message_eq⟩
  · rintro rfl
    exact ⟨horder, fun p => mem_problems_iff⟩
  · exact eq_of_pairwise hps horder fun p => (hmem p).trans mem_problems_iff.symm
  · classical
    have hset : {p | request.Violates catalog p} = (request.problems catalog).toFinset := by
      ext p
      simp [mem_problems_iff]
    rw [hset, Set.ncard_coe_finset, List.toFinset_card_of_nodup (nodup_places catalog request).of_map]
  · rw [List.Nodup, List.pairwise_map]
    exact horder.imp fun hbefore hmessage => hbefore.ne (Problem.place_of_message hmessage)

/-- A thickness that is NaN and a name of two wide spaces are problems, a second good target is none. -/
example : (problems Catalog.standard
      ⟨[⟨"\u3000\u3000", "Kryptonite", 0.0 / 0.0⟩, ⟨"slab", "Granite", 10.0⟩],
        ⟨"photon", [1.0, -1.0], 0⟩⟩).map Problem.place =
    [.name 0, .material 0, .thickness 0, .particle, .momentum 1, .events] := by
  decide +kernel

end Request

end Scan

end Telescope
