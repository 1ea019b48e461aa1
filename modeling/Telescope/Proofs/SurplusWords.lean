import Telescope.Proofs.CommandRanges
import Telescope.Proofs.LastWrites

/-!
# Surplus words

Parameters are taken from the front of the words, and nobody looks at what is left over. So a line that
gives all parameters of its command can go on with any words, and it means what it meant without them.

* `Parameters.Takes` says how many words a reader takes, at least and at most, and that it sees no
  others; readers in a row take the words of both (`Takes.bind`);
* `Command.takes_parameters` gives these numbers for every command;
* `Command.ofLine_ignores_surplus` is what follows for lines, whether they are accepted or refused.

What a reader takes is counted in words, required ones and optional ones. A reader with an optional
word takes it whenever it is there, so the counts of readers in a row add up.
-/

namespace Telescope

namespace Parameters

/-- The reader needs the first words, can do with some more, and sees none of those behind them. -/
structure Takes {α : Type} (required optional : Nat) (m : Parameters α) : Prop where
  /-- it leaves the words behind those that it can do with -/
  left_eq : ∀ {words left : List String} {a : α}, m words = .ok (a, left) →
    left = words.drop (required + optional)
  /-- it has found those that it needs -/
  required_le : ∀ {words left : List String} {a : α}, m words = .ok (a, left) →
    required ≤ words.length
  /-- it comes to the same, or fails alike, without the words that it does not see -/
  result_take : ∀ words, (m (words.take (required + optional))).map Prod.fst =
    (m words).map Prod.fst

variable {α β : Type} {m : Parameters α} {words left : List String} {r o r' o' : Nat}

/-! ## Readers of nothing

The units of composition: they take no word, and cannot see any. -/

/-- A value that is given takes no word. -/
theorem takes_pure (a : α) : Takes 0 0 (pure a : Parameters α) where
  left_eq h := (pure_eq_ok.1 h).2.symm
  required_le _ := Nat.zero_le _
  result_take _ := rfl

/-- A reader that always fails fits any two numbers, since it never leaves any words. -/
theorem takes_throw (r o : Nat) (e : CommandError) : Takes r o (throw e : Parameters α) where
  left_eq h := absurd h throw_ne_ok
  required_le h := absurd h throw_ne_ok
  result_take _ := rfl

/-! ## Readers in a row

Two readers in a row take the words of both, since the second sees only what the first has left. -/

/-- If the first reader succeeds, the second decides. -/
theorem map_fst_bind {f : α → Parameters β} {a : α} (h : m words = .ok (a, left)) :
    ((m >>= f) words).map Prod.fst = (f a left).map Prod.fst := by
  change ((m words >>= fun r => f r.1 r.2 : Except CommandError (β × List String))).map _ = _
  rw [h]
  rfl

/-- If it fails, so do both, and alike. -/
theorem map_fst_bind_of_error {f : α → Parameters β} {e : CommandError} (h : m words = .error e) :
    ((m >>= f) words).map Prod.fst = .error e := by
  rw [bind_eq_error.2 (.inl h)]
  rfl

/-- What a reader returns, it returns with some words left. -/
theorem map_fst_eq_ok {a : α} (h : (m words).map Prod.fst = .ok a) : ∃ left, m words = .ok (a, left) := by
  cases hm : m words with
  | error e =>
    rw [hm] at h
    exact nomatch h
  | ok result =>
    rw [hm] at h
    obtain rfl := Except.ok.inj h
    exact ⟨result.2, rfl⟩

/-- An error has no words left. -/
theorem map_fst_eq_error {e : CommandError} (h : (m words).map Prod.fst = .error e) :
    m words = .error e := by
  cases hm : m words with
  | error cause =>
    rw [hm] at h
    rw [Except.error.inj h]
  | ok result =>
    rw [hm] at h
    exact nomatch h

/-- Readers in a row take the words of both. The second sees what the first has left, which is
nothing if there were no more words than the first can do with. -/
theorem Takes.bind {f : α → Parameters β} (hm : Takes r o m) (hf : ∀ a, Takes r' o' (f a)) :
    Takes (r + r') (o + o') (m >>= f) := by
  have hsum : r + r' + (o + o') = (r + o) + (r' + o') := by omega
  refine ⟨fun h => ?_, fun h => ?_, fun words => ?_⟩
  · obtain ⟨a, rest, hfirst, hsecond⟩ := bind_eq_ok.1 h
    rw [(hf a).left_eq hsecond, hm.left_eq hfirst, List.drop_drop, hsum]
  · obtain ⟨a, rest, hfirst, hsecond⟩ := bind_eq_ok.1 h
    have hlength := (hf a).required_le hsecond
    rw [hm.left_eq hfirst, List.length_drop] at hlength
    have hneeded := hm.required_le hfirst
    omega
  · rw [hsum]
    -- the first reader sees the same words in both lists
    have hfirst : (m (words.take (r + o + (r' + o')))).map Prod.fst = (m words).map Prod.fst := by
      rw [← hm.result_take (words.take _), ← hm.result_take words, List.take_take,
        Nat.min_eq_left (Nat.le_add_right _ _)]
    cases hresult : (m words).map Prod.fst with
    | error e =>
      rw [map_fst_bind_of_error (map_fst_eq_error hresult),
        map_fst_bind_of_error (map_fst_eq_error (hfirst.trans hresult))]
    | ok a =>
      obtain ⟨left, hleft⟩ := map_fst_eq_ok hresult
      obtain ⟨short, hshort⟩ := map_fst_eq_ok (hfirst.trans hresult)
      rw [map_fst_bind hleft, map_fst_bind hshort, hm.left_eq hleft, hm.left_eq hshort,
        List.drop_take, Nat.add_sub_cancel_left]
      exact (hf a).result_take _

/-- What is done with a parameter takes no further word. -/
theorem Takes.last {f : α → Parameters β} (hm : Takes r o m) (hf : ∀ a, Takes 0 0 (f a)) :
    Takes r o (m >>= f) :=
  hm.bind hf

/-! ## Readers of parameters

Each of the readers is made of the ones above, or looks at one word. -/

variable {command parameter : String}

/-- A word is one word. -/
theorem takes_next : Takes 1 0 (next command parameter) := by
  refine ⟨fun h => ?_, fun h => ?_, fun words => ?_⟩
  · rw [next_eq_ok.1 h]
    rfl
  · rw [next_eq_ok.1 h]
    exact Nat.le_add_left 1 _
  · cases words <;> rfl

/-- So is a number. -/
theorem takes_number : Takes 1 0 (number command parameter) := by
  refine takes_next.last fun word => ?_
  split
  · split
    · exact takes_pure _
    · exact takes_throw 0 0 _
  · exact takes_throw 0 0 _

/-- A vector is three. -/
theorem takes_vector : Takes 3 0 (vector command) :=
  takes_number.bind fun _ => takes_number.bind fun _ => takes_number.last fun _ => takes_pure _

/-- A switch is one word. -/
theorem takes_switch : Takes 1 0 (switch command parameter) := by
  refine takes_next.last fun word => ?_
  split
  case h_5 => exact takes_throw 0 0 _
  all_goals exact takes_pure _

/-- A unit can be missing. -/
theorem takes_unit {usual : Float} {unit? : String → Option Float} :
    Takes 0 1 (unit command usual unit?) := by
  refine ⟨fun h => ?_, fun _ => Nat.zero_le _, fun words => ?_⟩
  · obtain ⟨rfl, -, rfl⟩ | ⟨symbol, rfl, -⟩ := unit_eq_ok_iff.1 h
    · rfl
    · rfl
  · cases words with
    | nil => rfl
    | cons symbol rest =>
      change (unit command usual unit? [symbol]).map Prod.fst = _
      unfold unit
      dsimp only
      cases unit? symbol <;> rfl

/-- A range check takes no word. -/
theorem takes_check {p : Prop} [Decidable p] {e : CommandError} {a : α} :
    Takes 0 0 (if p then do throw e; pure a else pure a : Parameters α) := by
  split
  · exact (takes_throw (α := PUnit) 0 0 e).bind fun _ => takes_pure a
  · exact takes_pure a

/-- A quantity is a number, and a unit that can be missing. -/
theorem takes_quantity {usual : Float} {unit? : String → Option Float} {constraint : String}
    {make : Float → Command} :
    Takes 1 1 (quantity command parameter constraint usual unit? make) :=
  takes_number.bind fun _ => takes_unit.last fun _ => takes_check

end Parameters

/-! ## Commands -/

namespace Command

open Parameters

/-- How many parameters a command has. -/
structure Arity where
  /-- those that it needs -/
  required : Nat
  /-- those that can be missing -/
  optional : Nat

/-- The number of all parameters. -/
def Arity.total (a : Arity) : Nat := a.required + a.optional

/-- The parameters of a command; only units can be missing. -/
def arity : String → Arity
  | "/beamscan/target/thickness" | "/gun/energy" => ⟨1, 1⟩
  | "/gun/direction" => ⟨3, 0⟩
  | "/gun/position" => ⟨3, 1⟩
  | "/beamscan/target/material" | "/beamscan/target/useMagnet" | "/beamscan/target/magnetFieldT"
  | "/gun/particle" | "/beamscan/output/filename" | "/run/beamOn" => ⟨1, 0⟩
  | _ => ⟨0, 0⟩

/-- A command takes its parameters and sees no further word. There is one case for each command
word, and one for all that are none. -/
theorem takes_parameters (command : String) :
    Takes (arity command).required (arity command).optional (parameters command) := by
  unfold parameters
  split
  case h_1 | h_9 => exact takes_next.last fun _ => takes_pure _
  case h_2 | h_6 => exact takes_quantity
  case h_3 => exact takes_switch.last fun _ => takes_pure _
  case h_4 => exact takes_number.last fun _ => takes_check
  case h_5 =>
    refine takes_next.last fun word => ?_
    split
    · exact takes_pure _
    · exact takes_throw 0 0 _
  case h_7 => exact takes_vector.last fun _ => takes_check
  case h_8 => exact takes_vector.bind fun _ => takes_unit.last fun _ => takes_pure _
  case h_11 =>
    refine takes_next.last fun word => ?_
    split
    · exact takes_pure _
    · exact takes_throw 0 0 _
  case h_16 => exact takes_throw _ _ _
  all_goals exact takes_pure _

/-- The number of words that are looked at: the command and its parameters. -/
def reach (words : List String) : Nat := 1 + (arity (words.headD "")).total

/-- Words that are added do not change how far a command reaches. -/
theorem reach_append {words : List String} (h : reach words ≤ words.length) (more : List String) :
    reach (words ++ more) = reach words := by
  cases words with
  | nil => exact absurd h (by decide)
  | cons command rest => rfl

/-- A command reaches over its parameters. -/
theorem reach_cons (command : String) (rest : List String) :
    reach (command :: rest) = (arity command).total + 1 :=
  Nat.add_comm 1 _

/-- The words out of reach make no difference. -/
theorem ofWords_take (words : List String) : ofWords (words.take (reach words)) = ofWords words := by
  cases words with
  | nil => rfl
  | cons command rest =>
    rw [reach_cons, List.take_succ_cons]
    exact (takes_parameters command).result_take rest

/-- What is added to a line that gives all parameters of its command makes no difference. -/
theorem ofWords_append {words : List String} (h : reach words ≤ words.length) (more : List String) :
    ofWords (words ++ more) = ofWords words := by
  rw [← ofWords_take (words ++ more), reach_append h, List.take_append_of_le_length h, ofWords_take]

/-- **Surplus words are ignored.** A line means what its command and its parameters mean, whether it is
accepted or refused. If it is accepted, the parameters that the command needs are there, and the words
out of reach are left over and dropped; so any text can be added to a line that gives all parameters of
its command, and nothing is changed by it. -/
theorem ofLine_ignores_surplus (line : List Char) :
    let words := (Text.words line).map String.ofList
    ofLine line = ofWords (words.take (reach words)) ∧
    (∀ command rest c, words = command :: rest → ofLine line = .ok c →
      (arity command).required ≤ rest.length ∧
      parameters command rest = .ok (c, words.drop (reach words))) ∧
    (reach words ≤ words.length → ∀ more : List Char, ofLine (line ++ ' ' :: more) = ofLine line) := by
  intro words
  refine ⟨(ofWords_take words).symm, fun command rest c hwords haccepted => ?_, fun h more => ?_⟩
  · have hline : ofLine line = ofWords (command :: rest) := congrArg ofWords hwords
    obtain ⟨left, hread⟩ := ofWords_cons_eq_ok.1 (hline.symm.trans haccepted)
    refine ⟨(takes_parameters command).required_le hread, ?_⟩
    rw [hread, (takes_parameters command).left_eq hread, hwords, reach_cons, List.drop_succ_cons]
    rfl
  · have hwords : (Text.words (line ++ ' ' :: more)).map String.ofList =
        words ++ (Text.words more).map String.ofList := by
      rw [Text.words, Text.wordsFrom_append_blank (by decide), List.map_append]
      rfl
    rw [ofLine, hwords]
    exact ofWords_append h _

/-- A count that is written in two groups is accepted as the first of them. -/
theorem not_within_reach_of_grouped_count :
    ¬ ∀ (line : List Char) (c : Command), ofLine line = .ok c → c.kind ≠ .verbosity →
      (Text.words line).length ≤ reach ((Text.words line).map String.ofList) := by
  intro hstrict
  have haccepted : ofLine "/run/beamOn 1 000".toList = .ok (.beamOn 1) := by rfl
  exact absurd (hstrict _ _ haccepted (by decide)) (by decide)

end Command

end Telescope
