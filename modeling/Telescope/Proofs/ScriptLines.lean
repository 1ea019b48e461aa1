import Mathlib.Data.List.ReduceOption
import Telescope.Plan
import Telescope.Proofs.Blanks
import Telescope.Proofs.Doubles
import Telescope.Proofs.NumberText
import Telescope.Script

/-!
# Reading macros line by line

A macro is read if and only if each of its lines is, and a line is read if and only if the readers
of its parameters find what they look for. The statements of this module have that form, so that they
serve in both directions: to show that a macro is read, and to find out what a macro that was read
must have been.

* `Parameters.bind_eq_ok` and its companions turn a reader into the conditions that it checks;
* `Command.ofWords_thickness_eq_ok` and `Command.ofWords_energy_eq_ok` use them for the two commands
  whose number has to be positive;
* `Script.commandOf` is the reading of a single line, and `Script.commandsFrom_eq_ok` takes a macro
  apart into its lines;
* `Script.isWord_of_outputFile`: whatever the macro, the file that its plan names is a word.

A reader of parameters is a function that takes words and returns what is left of them. Its
conditions are equivalences, so both what is accepted and what is refused can be read from them.
-/

namespace Telescope

open Text (IsWord unwords)

/-! ## Parameters

There is one lemma for each of the readers that all commands are made of. -/

namespace Parameters

variable {α β : Type} {words left : List String} {command parameter : String}

/-- Two readers in a row succeed if the first does, and the second does on what is left. -/
theorem bind_eq_ok {m : Parameters α} {f : α → Parameters β} {b : β} :
    (m >>= f) words = .ok (b, left) ↔
      ∃ a rest, m words = .ok (a, rest) ∧ f a rest = .ok (b, left) := by
  simp only [bind, StateT.bind, Except.bind]
  cases m words with
  | error e => simp
  | ok r =>
    obtain ⟨a, rest⟩ := r
    simp

/-- A value that is given takes no word. -/
theorem pure_eq_ok {a b : α} :
    (pure a : Parameters α) words = .ok (b, left) ↔ a = b ∧ words = left := by
  change (.ok (a, words) : Except CommandError (α × List String)) = .ok (b, left) ↔ _
  rw [Except.ok.injEq, Prod.mk.injEq]

/-- An error is no success. -/
theorem throw_ne_ok {e : CommandError} {b : α} :
    (throw e : Parameters α) words ≠ .ok (b, left) :=
  fun h => nomatch h

/-- A range check passes if the number is not outside. -/
theorem check_eq_ok {p : Prop} [Decidable p] {e : CommandError} {a b : α} :
    (if p then do throw e; pure a else pure a : Parameters α) words = .ok (b, left) ↔
      ¬ p ∧ a = b ∧ words = left := by
  by_cases hp : p
  · rw [if_pos hp, bind_eq_ok]
    constructor
    · rintro ⟨_, _, hthrow, -⟩
      exact absurd hthrow throw_ne_ok
    · rintro ⟨hnot, -⟩
      exact absurd hp hnot
  · rw [if_neg hp, pure_eq_ok]
    exact ⟨fun h => ⟨hp, h⟩, fun h => h.2⟩

/-- The next word is there to be taken. -/
theorem next_eq_ok {word : String} :
    next command parameter words = .ok (word, left) ↔ words = word :: left := by
  cases words with
  | nil => simp [next]
  | cons first rest => simp [next]

/-- A number is a word that is read as a finite double. Infinity and NaN are read, and refused. -/
theorem number_eq_ok {x : Float} :
    number command parameter words = .ok (x, left) ↔
      ∃ word, words = word :: left ∧ readFloat? word.toList = some x ∧ x.isFinite = true := by
  unfold number
  rw [bind_eq_ok]
  constructor
  · rintro ⟨word, rest, hnext, hx⟩
    rw [next_eq_ok] at hnext
    cases hread : readFloat? word.toList with
    | none =>
      rw [hread] at hx
      exact absurd hx throw_ne_ok
    | some y =>
      simp only [hread] at hx
      by_cases hfinite : y.isFinite = true
      · rw [if_pos hfinite, pure_eq_ok] at hx
        obtain ⟨rfl, rfl⟩ := hx
        exact ⟨word, hnext, hread, hfinite⟩
      · rw [if_neg hfinite] at hx
        exact absurd hx throw_ne_ok
  · rintro ⟨word, hwords, hread, hfinite⟩
    refine ⟨word, left, next_eq_ok.2 hwords, ?_⟩
    simp only [hread]
    rw [if_pos hfinite]
    exact pure_eq_ok.2 ⟨rfl, rfl⟩

/-- Three words with finite numbers are a vector. -/
theorem vector_of_read {a b c : String} {x y z : Float}
    (hx : readFloat? a.toList = some x ∧ x.isFinite = true)
    (hy : readFloat? b.toList = some y ∧ y.isFinite = true)
    (hz : readFloat? c.toList = some z ∧ z.isFinite = true) :
    vector command (a :: b :: c :: words) = .ok (⟨x, y, z⟩, words) := by
  unfold vector
  simp only [bind_eq_ok, number_eq_ok, pure_eq_ok]
  exact ⟨x, _, ⟨a, rfl, hx⟩, y, _, ⟨b, rfl, hy⟩, z, _, ⟨c, rfl, hz⟩, rfl, rfl⟩

/-- A number and a unit of factor one are the number. -/
theorem unit_eq_ok {usual factor : Float} {unit? : String → Option Float} {word : String}
    (h : unit? word = some factor) {s : Float} :
    unit command usual unit? (word :: words) = .ok (s, left) ↔ factor = s ∧ words = left := by
  simp only [unit, h]
  simp

end Parameters

/-! ## Commands

A command is its first word. What the others have to be is said by the lemmas about its readers. -/

namespace Command

open Parameters

/-- The command of some words, for a command word of its own. -/
theorem ofWords_cons_eq_ok {first : String} {rest : List String} {command : Command} :
    ofWords (first :: rest) = .ok command ↔
      ∃ left, parameters first rest = .ok (command, left) := by
  unfold ofWords
  cases hread : parameters first rest with
  | error e => simp [Except.map, hread]
  | ok r =>
    obtain ⟨c, left⟩ := r
    simp [Except.map, hread]

/-- The word is the text of this positive number. -/
structure IsPositive (word : String) (x : Float) : Prop where
  /-- it reads as the number -/
  read : readFloat? word.toList = some x
  /-- which is neither infinite nor NaN -/
  finite : x.isFinite = true
  /-- and above zero -/
  pos : 0.0 < x

/-- A quantity in a unit of factor one is read if it is a positive number. A product with one is the
number itself, so the range check sees what the line has. -/
theorem positive_eq_ok {command parameter constraint word symbol : String} {left : List String}
    {usual : Float} {unit? : String → Option Float} (hunit : unit? symbol = some 1.0)
    {make : Float → Command} {made : Command} :
    (do
      let value ← number command parameter
      let quantity := value * (← unit command usual unit?)
      if quantity <= 0.0 then throw (.outOfRange command value constraint)
      return make quantity : Parameters Command) [word, symbol] = .ok (made, left) ↔
    (∃ x, IsPositive word x ∧ made = make x) ∧ left = [] := by
  simp only [bind_eq_ok, number_eq_ok, check_eq_ok, List.cons.injEq]
  constructor
  · rintro ⟨x, rest, ⟨_, ⟨rfl, rfl⟩, hread, hfinite⟩, s, rest', hfactor, hpos, rfl, rfl⟩
    obtain ⟨rfl, rfl⟩ := (unit_eq_ok hunit).1 hfactor
    rw [Double.mul_one] at hpos ⊢
    exact ⟨⟨x, ⟨hread, hfinite,
      (Double.not_le_zero_iff_pos (Double.isNaN_of_isFinite hfinite)).1 hpos⟩, rfl⟩, rfl⟩
  · rintro ⟨⟨x, ⟨hread, hfinite, hpos⟩, rfl⟩, rfl⟩
    refine ⟨x, [symbol], ⟨word, ⟨rfl, rfl⟩, hread, hfinite⟩, 1.0, [],
      (unit_eq_ok hunit).2 ⟨rfl, rfl⟩, ?_⟩
    rw [Double.mul_one]
    exact ⟨(Double.not_le_zero_iff_pos (Double.isNaN_of_isFinite hfinite)).2 hpos, rfl, rfl⟩

/-- A thickness in millimetres is a positive number. -/
theorem ofWords_thickness_eq_ok {word : String} {command : Command} :
    ofWords ["/beamscan/target/thickness", word, "mm"] = .ok command ↔
      ∃ x, IsPositive word x ∧ command = .targetThickness x := by
  rw [ofWords_cons_eq_ok]
  exact (exists_congr fun _ => positive_eq_ok rfl).trans (by simp)

/-- So is an energy in MeV. -/
theorem ofWords_energy_eq_ok {word : String} {command : Command} :
    ofWords ["/gun/energy", word, "MeV"] = .ok command ↔
      ∃ x, IsPositive word x ∧ command = .gunEnergy x := by
  rw [ofWords_cons_eq_ok]
  exact (exists_congr fun _ => positive_eq_ok rfl).trans (by simp)

/-- A species is found by its name. -/
theorem ofWords_particle (particle : Particle) :
    ofWords ["/gun/particle", particle.name] = .ok (.gunParticle particle) := by
  rw [ofWords_cons_eq_ok]
  refine ⟨[], ?_⟩
  unfold parameters
  simp only [bind_eq_ok, next_eq_ok]
  refine ⟨particle.name, [], rfl, ?_⟩
  rw [Particle.ofName?_name]
  rfl

/-- A count is read back from its digits. -/
theorem ofWords_beamOn (events : UInt64) :
    ofWords ["/run/beamOn", toString events.toNat] = .ok (.beamOn events) := by
  have hdigits : (toString events.toNat).toList = Nat.toDigits 10 events.toNat :=
    Nat.toList_repr
  rw [ofWords_cons_eq_ok]
  refine ⟨[], ?_⟩
  unfold parameters
  simp only [bind_eq_ok, next_eq_ok]
  refine ⟨toString events.toNat, [], rfl, ?_⟩
  rw [hdigits, readUnsigned?_toDigits]
  rfl

/-- The text is a zero. -/
theorem readFloat?_zero : readFloat? "0".toList = some 0.0 ∧ (0.0 : Float).isFinite = true := by
  decide +kernel

/-- The beam axis is a direction. -/
theorem ofWords_direction :
    ofWords ["/gun/direction", "0", "0", "1"] = .ok (.gunDirection ⟨0.0, 0.0, 1.0⟩) := by
  have hone : readFloat? "1".toList = some 1.0 ∧ (1.0 : Float).isFinite = true := by
    decide +kernel
  have hlength : ¬ ((⟨0.0, 0.0, 1.0⟩ : Vector3).norm == 0.0) = true := by decide +kernel
  rw [ofWords_cons_eq_ok]
  refine ⟨[], ?_⟩
  unfold parameters
  simp only [bind_eq_ok, check_eq_ok]
  exact ⟨_, _, vector_of_read readFloat?_zero readFloat?_zero hone, hlength, rfl, rfl⟩

/-- The gun stands in front of the detector. -/
theorem ofWords_position :
    ofWords ["/gun/position", "0", "0", "-80", "cm"] =
      .ok (.gunPosition ((⟨0.0, 0.0, -80.0⟩ : Vector3).scale Unit.cm)) := by
  have hplace : readFloat? "-80".toList = some (-80.0) ∧ (-80.0 : Float).isFinite = true := by
    decide +kernel
  rw [ofWords_cons_eq_ok]
  refine ⟨[], ?_⟩
  unfold parameters
  simp only [bind_eq_ok, pure_eq_ok]
  exact ⟨_, _, vector_of_read readFloat?_zero readFloat?_zero hplace, _, _,
    (unit_eq_ok rfl).2 ⟨rfl, rfl⟩, rfl, rfl⟩

/-- The file that a command names is one of its words. -/
theorem mem_of_ofWords_outputFile {ws : List String} {name : String}
    (h : ofWords ws = .ok (.outputFile name)) : name ∈ ws := by
  cases ws with
  | nil => exact nomatch h
  | cons first rest =>
    obtain ⟨left, hread⟩ := ofWords_cons_eq_ok.1 h
    refine List.mem_cons_of_mem _ ?_
    unfold parameters at hread
    split at hread
    case h_9 =>
      obtain ⟨word, _, hnext, hname⟩ := bind_eq_ok.1 hread
      obtain ⟨hname, -⟩ := pure_eq_ok.1 hname
      rw [next_eq_ok.1 hnext, Command.outputFile.inj hname]
      exact List.mem_cons_self
    -- the other command words make other commands, if any
    case h_5 =>
      obtain ⟨word, _, -, hparticle⟩ := bind_eq_ok.1 hread
      cases hfound : Particle.ofName? word with
      | none => simp only [hfound, throw_ne_ok] at hparticle
      | some particle => simp only [hfound, pure_eq_ok, reduceCtorEq, false_and] at hparticle
    case h_11 =>
      obtain ⟨word, _, -, hevents⟩ := bind_eq_ok.1 hread
      cases hcount : readUnsigned? word.toList with
      | none => simp only [hcount, throw_ne_ok] at hevents
      | some events => simp only [hcount, pure_eq_ok, reduceCtorEq, false_and] at hevents
    case h_16 => exact absurd hread throw_ne_ok
    all_goals
      simp only [bind_eq_ok, pure_eq_ok, check_eq_ok, reduceCtorEq, false_and, and_false,
        exists_false] at hread

end Command

/-! ## Lines

A line is trimmed, and may be skipped. `commandOf` says in one value what it comes to, so that a
macro is read by taking the lines one after the other. -/

/-- A list is gone through if its first element is, and then the others. -/
theorem mapM_cons_eq_ok {α β ε : Type} {f : α → Except ε β} {x : α} {xs : List α} {all : List β} :
    (x :: xs).mapM f = .ok all ↔ ∃ y ys, f x = .ok y ∧ xs.mapM f = .ok ys ∧ all = y :: ys := by
  rw [List.mapM_cons]
  cases f x with
  | error cause => simp [bind, Except.bind]
  | ok y =>
    cases xs.mapM f with
    | error cause => simp [bind, Except.bind]
    | ok ys => simp [bind, Except.bind, pure, Except.pure, eq_comm]

/-- Every result comes from an element of the list. -/
theorem exists_of_mem_mapM {α β ε : Type} {f : α → Except ε β} {xs : List α} {ys : List β}
    (h : xs.mapM f = .ok ys) {y : β} (hy : y ∈ ys) : ∃ x ∈ xs, f x = .ok y := by
  induction xs generalizing ys with
  | nil =>
    obtain rfl : [] = ys := Except.ok.inj h
    exact absurd hy List.not_mem_nil
  | cons x xs ih =>
    obtain ⟨first, rest, hfirst, hrest, rfl⟩ := mapM_cons_eq_ok.1 h
    obtain rfl | hy := List.mem_cons.1 hy
    · exact ⟨x, List.mem_cons_self, hfirst⟩
    · obtain ⟨x', hx', hresult⟩ := ih hrest hy
      exact ⟨x', List.mem_cons_of_mem x hx', hresult⟩

namespace Script

/-- What a line asks for, if it holds a command. -/
def commandOf (line : List Char) : Except CommandError (Option Command) :=
  let line := Text.trim line
  if isSkipped line then .ok none else (Command.ofLine line).map some

/-- The first line is read on its own; its error carries its number. -/
theorem commandsFrom_cons (number : Nat) (line : List Char) (ls : List (List Char)) :
    commandsFrom number (line :: ls) =
      match commandOf line with
      | .error cause => .error ⟨number, cause⟩
      | .ok c => (commandsFrom (number + 1) ls).map (c.toList ++ ·) := by
  unfold commandOf
  by_cases hskipped : isSkipped (Text.trim line) = true
  · rw [commandsFrom_skipped _ hskipped]
    dsimp only
    rw [if_pos hskipped]
    cases commandsFrom (number + 1) ls <;> rfl
  · rw [commandsFrom]
    dsimp only
    rw [if_neg hskipped, if_neg hskipped]
    cases Command.ofLine (Text.trim line) <;> rfl

/-- A macro is read if each of its lines is, and the commands are those of the lines. Lines without
a command are among them as nothing. -/
theorem commandsFrom_eq_ok {ls : List (List Char)} {number : Nat} {commands : List Command} :
    commandsFrom number ls = .ok commands ↔
      ∃ cs, ls.mapM commandOf = .ok cs ∧ commands = cs.reduceOption := by
  induction ls generalizing number commands with
  | nil =>
    constructor
    · intro h
      exact ⟨[], rfl, (Except.ok.inj h).symm⟩
    · rintro ⟨cs, hcs, rfl⟩
      obtain rfl : [] = cs := Except.ok.inj hcs
      rfl
  | cons line ls ih =>
    -- the equivalence is needed with any number for the first line, since the rest has the next one
    rw [commandsFrom_cons]
    constructor
    · intro h
      cases hline : commandOf line with
      | error cause =>
        rw [hline] at h
        exact nomatch h
      | ok c =>
        cases hrest : commandsFrom (number + 1) ls with
        | error e =>
          rw [hline, hrest] at h
          exact nomatch h
        | ok rest =>
          obtain ⟨cs, hcs, rfl⟩ := ih.1 hrest
          rw [hline, hrest] at h
          refine ⟨c :: cs, mapM_cons_eq_ok.2 ⟨c, cs, hline, hcs, rfl⟩, ?_⟩
          rw [← Except.ok.inj h]
          cases c <;> rfl
    · rintro ⟨_, hall, rfl⟩
      obtain ⟨c, cs, hline, hcs, rfl⟩ := mapM_cons_eq_ok.1 hall
      rw [hline]
      dsimp only
      rw [ih.2 ⟨cs, hcs, rfl⟩]
      cases c <;> rfl

/-- A comment holds no command. -/
theorem commandOf_comment {line : List Char} (h : line.head? = some '#') :
    commandOf line = .ok none := by
  obtain ⟨text, rfl⟩ := List.head?_eq_some_iff.1 h
  have hfirst : (Text.trim ('#' :: text)).head? = some '#' := Text.head?_trim (by decide) text
  unfold commandOf
  dsimp only
  rw [if_pos]
  simp [isSkipped, hfirst]

/-- A line of words that starts with a slash is the command of its words. -/
theorem commandOf_unwords (ws : List String) (hwords : ∀ w ∈ ws, IsWord w.toList)
    (hslash : (unwords (ws.map String.toList)).head? = some '/') :
    commandOf (unwords (ws.map String.toList)) = (Command.ofWords ws).map some := by
  have hsplit :
      (Text.words (Text.trim (unwords (ws.map String.toList)))).map String.ofList = ws := by
    rw [Text.words_trim, Text.words_unwords, List.map_map]
    · simp [Function.comp_def]
    · intro w hw
      obtain ⟨v, hv, rfl⟩ := List.mem_map.1 hw
      exact hwords v hv
  have hkept : ¬ isSkipped (Text.trim (unwords (ws.map String.toList))) = true := by
    obtain ⟨text, htext⟩ := List.head?_eq_some_iff.1 hslash
    -- trimming keeps the slash in front, and a line that starts with one is no comment
    have hfirst := Text.head?_trim (c := '/') (by decide) text
    rw [← htext] at hfirst
    obtain ⟨rest, hrest⟩ := List.head?_eq_some_iff.1 hfirst
    rw [hrest]
    simp [isSkipped]
  unfold commandOf
  dsimp only
  rw [if_neg hkept, Command.ofLine, hsplit]

/-- The file that a plan names was named by one of its commands. -/
theorem mem_of_outputFile {commands : List Command} {plan : Plan} {name : String}
    (h : (commands.foldl Plan.apply plan).outputFile = some name) :
    plan.outputFile = some name ∨ .outputFile name ∈ commands := by
  induction commands generalizing plan with
  | nil => exact .inl h
  | cons command commands ih =>
    obtain hplan | hmem := ih h
    · cases command with
      | outputFile other =>
        obtain rfl : other = name := Option.some.inj hplan
        exact .inr List.mem_cons_self
      | _ => exact .inl hplan
    · exact .inr (List.mem_cons_of_mem _ hmem)

/-- The file that a line names is one of its words, so there is no blank in it. -/
theorem isWord_of_commandOf {line : List Char} {name : String}
    (h : commandOf line = .ok (some (.outputFile name))) : IsWord name.toList := by
  unfold commandOf at h
  dsimp only at h
  split at h
  · exact nomatch h
  · cases hread : Command.ofLine (Text.trim line) with
    | error e =>
      rw [hread] at h
      exact nomatch h
    | ok command =>
      rw [hread] at h
      obtain rfl : command = .outputFile name := Option.some.inj (Except.ok.inj h)
      obtain ⟨word, hword, rfl⟩ := List.mem_map.1 (Command.mem_of_ofWords_outputFile hread)
      rw [String.toList_ofList]
      exact Text.isWord_of_mem_words hword

/-- Whatever the macro, the file that its plan names is a word. -/
theorem isWord_of_outputFile {ls : List (List Char)} {number : Nat} {commands : List Command}
    (h : commandsFrom number ls = .ok commands) {name : String}
    (hname : (Plan.ofCommands commands).outputFile = some name) : IsWord name.toList := by
  obtain ⟨cs, hcs, rfl⟩ := commandsFrom_eq_ok.1 h
  obtain hdefault | hmem := mem_of_outputFile hname
  · exact nomatch hdefault
  · obtain ⟨line, -, hline⟩ := exists_of_mem_mapM hcs (List.reduceOption_mem_iff.1 hmem)
    exact isWord_of_commandOf hline

end Script

end Telescope
