import Telescope.Proofs.FileLaws
import Telescope.Proofs.JsonRoundTrip
import Telescope.Proofs.TraceLines

/-!
# Traces come back from their files

What `Trace.write` has written is what `Trace.read` gives (`Trace.read_write`): every event has a line of
its own, whatever characters the names of its volumes have, and the JSON of a line is the record of the
event.

* The records of steps and events are written with the fields that they are read from
  (`TraceStep.ofJson?_toJson`, `TraceEvent.ofJson?_toJson`). A volume that is not given is left out, and
  is then not found.
* The lines are those of the events, since there are no line ends in JSON texts, and none of them is
  blank (`TraceEvent.filled_text`).

Doubles are another matter. They are written with enough digits to tell them apart, but the reader rounds
twice, so this is asked of the numbers of a trace (`Json.ReadsBack`).

The path may be relative or absolute, and the file may be there already. All that is asked is that a
file can be written at the path, since a trace is written in one go and read in one.
-/

namespace Telescope

open Json (Plain)

/-! ## Numbers

Whole numbers of 64 bits are read back without a condition. For doubles the condition is decidable,
so that it can be checked for the numbers of a given trace. -/

/-- The double is read back from its JSON text. Digits and a power of ten are rounded one after the
other, so seventeen digits may be read as a neighbour of the double that they were written for. -/
def Json.ReadsBack (x : Float) : Prop := Number.float? (numberStyle.chars x) = some x

namespace Json

instance (x : Float) : Decidable (ReadsBack x) := inferInstanceAs (Decidable (_ = _))

/-- Digits and a power of ten are rounded one after the other, so seventeen digits may be read as a
neighbour of the double that they were written for. -/
example : ¬ ReadsBack 0.19844004278856286 := by decide +kernel

/-- A finite double is written as a number. -/
theorem plain_ofFloat {x : Float} (h : x.isFinite = true) : Plain (.ofFloat x) := by
  rw [ofFloat, if_pos h]
  exact .number (literal_chars numberStyle h)

/-- It is then read as what its text is read as. -/
theorem float?_ofFloat {x : Float} (h : x.isFinite = true) (hback : ReadsBack x) :
    (ofFloat x).float? = some x := by
  rw [ofFloat, if_pos h]
  exact hback

/-- A whole number of 64 bits is read back. -/
theorem unsigned?_ofNat (n : UInt64) : (ofNat n.toNat).unsigned? = some n := by
  have hdigits : (Nat.toDigits 10 n.toNat).all Char.isDigit = true :=
    List.all_eq_true.2 fun _ hc => isDigit_of_mem_toDigits hc
  rw [ofNat, unsigned?, Number.unsigned?, if_pos hdigits, readUnsigned?_toDigits]

/-- A list of values is read as the list that it was made of. -/
theorem listOf?_map {α : Type} {read? : Json → Option α} {make : α → Json} {xs : List α}
    (h : ∀ x ∈ xs, read? (make x) = some x) : listOf? read? (.array (xs.map make)) = some xs := by
  rw [listOf?]
  induction xs with
  | nil => rfl
  | cons x xs ih =>
    obtain ⟨hx, hxs⟩ := List.forall_mem_cons.1 h
    rw [List.map_cons, List.mapM_cons, hx, ih hxs]
    rfl

end Json

/-! ## Records

A record is an object with named fields, and the reader looks for each of them. Fields that are not
there are errors, except the volume of a step. -/

/-- The numbers of a vector. -/
def Vector3.doubles (v : Vector3) : List Float := [v.x, v.y, v.z]

/-- A vector is an array of three numbers. -/
theorem Vector3.plain_toJson {v : Vector3} (h : ∀ x ∈ v.doubles, x.isFinite = true) :
    Plain v.toJson := by
  refine .array fun value hvalue => ?_
  obtain ⟨x, hx, rfl⟩ : ∃ x ∈ v.doubles, Json.ofFloat x = value := List.mem_map.1 hvalue
  exact Json.plain_ofFloat (h x hx)

/-- It is read back if its numbers are. -/
theorem Vector3.ofJson?_toJson {v : Vector3} (h : ∀ x ∈ v.doubles, x.isFinite = true)
    (hback : ∀ x ∈ v.doubles, Json.ReadsBack x) : Vector3.ofJson? v.toJson = some v := by
  have hlist : v.toJson.listOf? Json.float? = some v.doubles :=
    Json.listOf?_map fun x hx => Json.float?_ofFloat (h x hx) (hback x hx)
  rw [Vector3.ofJson?, hlist]
  rfl

namespace TraceStep

/-- The numbers of a step. -/
def doubles (s : TraceStep) : List Float :=
  s.position.doubles ++ s.momentum.doubles ++ [s.edep]

/-- The fields of the record of a step are found again. -/
theorem slots?_toJson (s : TraceStep) :
    s.toJson.slots? false fieldNames =
      some [s.volume.map .ofText, some s.position.toJson, some s.momentum.toJson,
        some (.ofFloat s.edep)] := by
  obtain ⟨volume, position, momentum, edep⟩ := s
  cases volume <;> rfl

/-- The numbers of a step are those of its two vectors and its energy. -/
theorem forall_mem_doubles {s : TraceStep} {p : Float → Prop} :
    (∀ x ∈ s.doubles, p x) ↔
      (∀ x ∈ s.position.doubles, p x) ∧ (∀ x ∈ s.momentum.doubles, p x) ∧ p s.edep := by
  rw [doubles, List.forall_mem_append, List.forall_mem_append, List.forall_mem_singleton, and_assoc]

/-- A record of finite numbers can be written, whatever the name of the volume. -/
theorem plain_toJson {s : TraceStep} (h : ∀ x ∈ s.doubles, x.isFinite = true) : Plain s.toJson := by
  obtain ⟨hposition, hmomentum, hedep⟩ := forall_mem_doubles.1 h
  refine Json.plain_ofFields (List.forall_mem_append.2 ⟨?_, ?_⟩)
  · intro f hf
    obtain ⟨name, -, rfl⟩ := List.mem_map.1 hf
    exact .string name
  · rw [List.forall_mem_cons, List.forall_mem_cons, List.forall_mem_singleton]
    exact ⟨Vector3.plain_toJson hposition, Vector3.plain_toJson hmomentum, Json.plain_ofFloat hedep⟩

/-- **A step is read back from its record,** with its volume or without. -/
theorem ofJson?_toJson {s : TraceStep} (h : ∀ x ∈ s.doubles, x.isFinite = true)
    (hback : ∀ x ∈ s.doubles, Json.ReadsBack x) : ofJson? s.toJson = some s := by
  obtain ⟨hposition, hmomentum, hedep⟩ := forall_mem_doubles.1 h
  obtain ⟨hposition', hmomentum', hedep'⟩ := forall_mem_doubles.1 hback
  have hvolume : Json.withDefault? none (Json.optional? Json.text?) (s.volume.map .ofText) =
      some s.volume := by
    cases s.volume <;> rfl
  have henergy : Json.withDefault? 0.0 Json.float? (some (.ofFloat s.edep)) = some s.edep :=
    Json.float?_ofFloat hedep hedep'
  simp only [ofJson?, slots?_toJson, hvolume, henergy, Json.required?, Option.bind_some,
    Vector3.ofJson?_toJson hposition hposition', Vector3.ofJson?_toJson hmomentum hmomentum',
    Option.bind_eq_bind, Option.pure_def]

end TraceStep

namespace TraceEvent

/-- The numbers of an event. -/
def doubles (e : TraceEvent) : List Float := e.steps.flatMap TraceStep.doubles

/-- The fields of the record of an event are found again. -/
theorem slots?_toJson (e : TraceEvent) :
    e.toJson.slots? false fieldNames =
      some [some (.ofNat e.event.toNat), some (.array (e.steps.map TraceStep.toJson))] := rfl

/-- So can the record of an event. -/
theorem plain_toJson {e : TraceEvent} (h : ∀ x ∈ e.doubles, x.isFinite = true) : Plain e.toJson := by
  refine Json.plain_ofFields ?_
  rw [List.forall_mem_cons, List.forall_mem_singleton]
  refine ⟨.number (Json.literal_toDigits _), .array fun value hvalue => ?_⟩
  obtain ⟨s, hs, rfl⟩ := List.mem_map.1 hvalue
  exact TraceStep.plain_toJson fun x hx => h x (List.mem_flatMap.2 ⟨s, hs, hx⟩)

/-- **An event is read back from its record.** -/
theorem ofJson?_toJson {e : TraceEvent} (h : ∀ x ∈ e.doubles, x.isFinite = true)
    (hback : ∀ x ∈ e.doubles, Json.ReadsBack x) : ofJson? e.toJson = some e := by
  have hsteps : Json.listOf? TraceStep.ofJson? (.array (e.steps.map TraceStep.toJson)) =
      some e.steps :=
    Json.listOf?_map fun s hs => TraceStep.ofJson?_toJson
      (fun x hx => h x (List.mem_flatMap.2 ⟨s, hs, hx⟩))
      fun x hx => hback x (List.mem_flatMap.2 ⟨s, hs, hx⟩)
  simp only [ofJson?, slots?_toJson, Json.required?, Option.bind_some, Json.unsigned?_ofNat, hsteps,
    Option.bind_eq_bind, Option.pure_def]

/-- An event is read back from its line. -/
theorem ofLine?_text {e : TraceEvent} (h : ∀ x ∈ e.doubles, x.isFinite = true)
    (hback : ∀ x ∈ e.doubles, Json.ReadsBack x) : ofLine? e.toJson.text = some e := by
  rw [ofLine?, (plain_toJson h).read?_text, Option.bind_some, ofJson?_toJson h hback]

/-- A line of an event is not blank. -/
theorem filled_text (e : TraceEvent) : Text.Filled e.toJson.text := by
  obtain ⟨rest, hrest⟩ : ∃ rest, e.toJson.text = '\x7b' :: rest := ⟨_, rfl⟩
  rw [hrest]
  exact ⟨'\x7b', List.mem_cons_self, by decide⟩

end TraceEvent

/-! ## Files

The text of a trace is its lines with a line feed behind each. It is read back line by line, and the
number of lines does not matter. -/

namespace Trace

/-- The numbers of a trace. -/
def doubles (trace : Trace) : List Float := trace.flatMap TraceEvent.doubles

/-- Lines of events are read as the events, whatever the number of the first one. -/
theorem eventsOfLines_map {ofLine? : List Char → Option TraceEvent} {trace : Trace}
    (h : ∀ e ∈ trace, ofLine? e.toJson.text = some e) (number : Nat) :
    eventsOfLines ofLine? number (trace.map fun e => e.toJson.text) = .ok trace := by
  have hfilled : ∀ line ∈ trace.map fun e => e.toJson.text, decide (Text.Filled line) = true := by
    intro line hline
    obtain ⟨e, -, rfl⟩ := List.mem_map.1 hline
    exact decide_eq_true e.filled_text
  rw [eventsOfLines_eq_ok_iff, List.filter_eq_self.2 hfilled, List.map_map]
  exact List.map_congr_left h

/-- The text of a trace is read as the trace. Each event has one line, and each line is filled. -/
theorem ofText_text {trace : Trace} (h : ∀ x ∈ trace.doubles, x.isFinite = true)
    (hback : ∀ x ∈ trace.doubles, Json.ReadsBack x) : ofText trace.text = .ok trace := by
  have hlines : Text.lines trace.text.toList = trace.map fun e => e.toJson.text := by
    have htext : trace.text.toList = (trace.map fun e => e.toJson.text).flatMap (· ++ ['\n']) := by
      rw [text, String.toList_ofList, List.flatMap_map]
    rw [htext]
    refine Text.lines_flatMap_feed_of_not_mem fun l hl => ?_
    obtain ⟨e, he, rfl⟩ := List.mem_map.1 hl
    exact (TraceEvent.plain_toJson fun x hx =>
      h x (List.mem_flatMap.2 ⟨e, he, hx⟩)).printable.not_mem
  rw [ofText, hlines]
  exact eventsOfLines_map (fun e he => TraceEvent.ofLine?_text
    (fun x hx => h x (List.mem_flatMap.2 ⟨e, he, hx⟩))
    fun x hx => hback x (List.mem_flatMap.2 ⟨e, he, hx⟩)) 1

/-- **A trace comes back from its file.** Any trace of finite numbers can be written where any file can
be written, and is then read from there as it was, provided that its numbers are read back one by one. -/
theorem read_write {files made : Files} {path : String} (hpath : files.write path "" = .ok made)
    {trace : Trace} (hfinite : ∀ x ∈ trace.doubles, x.isFinite = true)
    (hback : ∀ x ∈ trace.doubles, Json.ReadsBack x) :
    ∃ later, trace.write files path = .ok later ∧ read later path = .ok trace := by
  obtain ⟨later, hlater⟩ := Files.exists_write_of_write hpath trace.text
  refine ⟨later, by rw [write, hlater], ?_⟩
  rw [read, Files.read_of_write hlater]
  dsimp only
  rw [ofText_text hfinite hback]

/-- A trace with an empty event, and with names and numbers that are easily lost. -/
def delicate : Trace :=
  [⟨0, []⟩,
    ⟨18446744073709551615,
      [⟨some "Target \"A\"\\\r\n\t\x01", ⟨-0.0, 0.1, 1e300⟩, ⟨0.0, -2.5, 5e-324⟩, 0.3⟩,
        ⟨none, ⟨0.0, 0.0, -1000.0⟩, ⟨0.0, 0.0, 2000.0⟩, -0.0⟩]⟩]

/-- Names with quotation marks, backslashes and control characters come back, and so do the least
double, minus zero and a number with a long exponent. -/
theorem read_write_delicate :
    ∃ later, delicate.write Files.empty "trace.jsonl" = .ok later ∧
      read later "trace.jsonl" = .ok delicate := by
  have hfinite : ∀ x ∈ delicate.doubles, x.isFinite = true := by decide +kernel
  have hback : ∀ x ∈ delicate.doubles, Json.ReadsBack x := by decide +kernel
  exact read_write rfl hfinite hback

end Trace

end Telescope
