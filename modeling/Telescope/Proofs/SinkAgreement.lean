import Mathlib.Data.List.Induction
import Telescope.Proofs.FileLaws
import Telescope.Proofs.TableText
import Telescope.Table.Sink

/-!
# The two kinds of sinks agree

A sink in memory and a sink in a file answer any sequence of calls alike, and a closed file has the
records that the sink in memory keeps.

* `Agree` relates the two sinks and the files. There are three cases: neither sink was opened yet, both
  are open, or both are closed with the records in the file.
* `Agree.on` is the step: a call is answered alike and leaves sinks that agree. `Agree.serve` is the
  induction over the calls.
* The file can be written at every close, since it could be written at the first opening: the operations
  of the sinks leave the directories alone (`ready_of_write`).

The path is any path, relative or absolute, and the files any tree in which it can be opened. That
it can is asked only if one of the calls opens the sink.

What the row writer puts down is read by the fields of a record, and the columns are those of the
record's names. That a field stands under its own column is a fact about the record
(`Table.Record.unzip_fields`).
-/

namespace Telescope

/-- A call of an operation of a sink. -/
inductive SinkCall
  /-- opens the sink -/
  | start
  /-- appends a row -/
  | append (row : Row)
  /-- closes the sink -/
  | close

namespace SinkCall

/-- **A call is answered alike** by sinks that agree. There is one case for each call and each of
the three cases of agreement, and the files are written in two of them. -/
def on {S : Type} [Sink S] (sink : S) (files : Files) : SinkCall → SinkReply S
  | .start => Sink.start sink files
  | .append row => Sink.append sink files row
  | .close => Sink.close sink files

/-- Whether the call is to open the sink. -/
def starts : SinkCall → Bool
  | .start => true
  | .append _ | .close => false

end SinkCall

/-- A sink and the files after some calls. -/
def Sink.serve {S : Type} [Sink S] (sink : S) (files : Files) (calls : List SinkCall) : S × Files :=
  calls.foldl (fun (sink, files) c => ((c.on sink files).sink, (c.on sink files).files)) (sink, files)

/-- The last of some calls gets what the others have left. -/
theorem Sink.serve_concat {S : Type} [Sink S] (sink : S) (files : Files) (calls : List SinkCall)
    (c : SinkCall) :
    Sink.serve sink files (calls ++ [c]) =
      let (sink, files) := Sink.serve sink files calls
      ((c.on sink files).sink, (c.on sink files).files) :=
  List.foldl_concat ..

namespace FileSink

variable {path : String} {files made later : Files}

/-- A sink that was never opened. -/
def fresh (path : String) : FileSink := ⟨path, none, 0⟩

/-- The file can be made, with the directories that lead to it. The tree is the one before the first
call. -/
def CanOpen (path : String) (files : Files) : Prop :=
  ∃ made later, makeDirectory path files = (made, .ok ()) ∧ made.write path "" = .ok later

/-- The directories for the file are there, and it can be written. -/
structure Ready (path : String) (files : Files) : Prop where
  /-- there is no directory left to make -/
  directory : makeDirectory path files = (files, .ok ())
  /-- any text can be written -/
  write : ∀ text, ∃ later, files.write path text = .ok later

/-- The directory of a sink is made once. It is found whenever the sink is opened again. -/
theorem makeDirectory_again (h : (makeDirectory path files).2 = .ok ())
    (hkeeps : (makeDirectory path files).1.KeepsDirectories later) :
    makeDirectory path later = (later, .ok ()) := by
  unfold makeDirectory at h hkeeps ⊢
  cases hdirectory : Path.directory? path with
  | none => rfl
  | some directory =>
    simp only [hdirectory] at h hkeeps ⊢
    exact Files.makeDirectories_again h hkeeps

/-- Where a file was written it can be written again, since its directories are still there. -/
theorem ready_of_write {text : String} (hmake : makeDirectory path files = (made, .ok ()))
    (hwrite : made.write path text = .ok later) : Ready path later where
  directory := by
    have hmade : (makeDirectory path files).2 = .ok () := congrArg Prod.snd hmake
    refine makeDirectory_again hmade ?_
    rw [hmake]
    exact Files.keeps_of_write hwrite
  write := Files.exists_write_again hwrite

/-- A sink is opened where the directory and an empty file can be made. -/
theorem start_on (hmake : makeDirectory path files = (made, .ok ()))
    (hwrite : made.write path "" = .ok later) (rows : Nat) :
    SinkCall.start.on (⟨path, none, rows⟩ : FileSink) files =
      ⟨⟨path, some #[], 0⟩, later, [openedReport path], .ok ()⟩ := by
  simp only [SinkCall.on, Sink.start, start, hmake, hwrite]

/-- An open sink is closed where the file can be written. -/
theorem close_on {records : Array Table.Record} (rows : Nat)
    (hwrite : files.write path (Table.text records.toList) = .ok later) :
    SinkCall.close.on (⟨path, some records, rows⟩ : FileSink) files =
      ⟨⟨path, none, rows⟩, later, [closedReport path rows], .ok ()⟩ := by
  simp only [SinkCall.on, Sink.close, close, hwrite]

end FileSink

open FileSink (CanOpen Ready)

/-- **A sink in a file and one in memory agree.** Whether they have been opened is told apart, since
there need not be a file before. -/
inductive Agree (path : String) (initial : Files) :
    Bool → FileSink × Files → MemorySink → Prop
  /-- before the first opening -/
  | untouched : Agree path initial false (FileSink.fresh path, initial) MemorySink.fresh
  /-- both are open -/
  | opened (files : Files) (records : Array Table.Record) (ready : Ready path files) :
    Agree path initial true (⟨path, some records, records.size⟩, files) ⟨records, true⟩
  /-- both are closed, and the records are in the file -/
  | closed (files : Files) (records : Array Table.Record) (ready : Ready path files)
    (read : files.read path = .ok (Table.text records.toList)) :
    Agree path initial true (⟨path, none, records.size⟩, files) ⟨records, false⟩

namespace Agree

variable {path : String} {initial : Files} {started : Bool} {state : FileSink × Files}
  {memory : MemorySink}

/-- Sinks that agree are open at the same times. -/
theorem isOpen (h : Agree path initial started state memory) :
    state.1.pending.isSome = memory.isOpen := by
  cases h <;> rfl

/-- Sinks that agree count the same rows. -/
theorem rows (h : Agree path initial started state memory) :
    Sink.rows state.1 = Sink.rows memory := by
  cases h <;> rfl

/-- **A call is answered alike** by sinks that agree. -/
theorem on (h : Agree path initial started state memory) (c : SinkCall) (files : Files)
    (hopen : c.starts = true → CanOpen path initial) :
    (c.on state.1 state.2).result = (c.on memory files).result ∧
      Agree path initial (started || c.starts)
        ((c.on state.1 state.2).sink, (c.on state.1 state.2).files) (c.on memory files).sink := by
  cases h with
  | untouched =>
    cases c with
    | start =>
      obtain ⟨made, later, hmake, hwrite⟩ := hopen rfl
      rw [FileSink.fresh, FileSink.start_on hmake hwrite]
      exact ⟨rfl, .opened later #[] (FileSink.ready_of_write hmake hwrite)⟩
    | append row => exact ⟨rfl, .untouched⟩
    | close => exact ⟨rfl, .untouched⟩
  | opened tree records ready =>
    cases c with
    | start => exact ⟨rfl, .opened tree records ready⟩
    | append row =>
      refine ⟨rfl, ?_⟩
      have hsize : (records.push (Table.Record.ofRow row)).size = records.size + 1 :=
        Array.size_push _
      have hopened : Agree path initial true
          (⟨path, some (records.push (.ofRow row)), (records.push (.ofRow row)).size⟩, tree)
          ⟨records.push (.ofRow row), true⟩ := .opened tree _ ready
      rwa [hsize] at hopened
    | close =>
      obtain ⟨later, hwrite⟩ := ready.write (Table.text records.toList)
      rw [FileSink.close_on _ hwrite]
      exact ⟨rfl, .closed later records (FileSink.ready_of_write ready.directory hwrite)
        (Files.read_of_write hwrite)⟩
  | closed tree records ready read =>
    cases c with
    | start =>
      obtain ⟨later, hwrite⟩ := ready.write ""
      rw [FileSink.start_on ready.directory hwrite]
      exact ⟨rfl, .opened later #[] (FileSink.ready_of_write ready.directory hwrite)⟩
    | append row => exact ⟨rfl, .closed tree records ready read⟩
    | close => exact ⟨rfl, .closed tree records ready read⟩

/-- After any calls the sinks agree. The induction takes the last call off, which is the one that
the step is about. -/
theorem serve {calls : List SinkCall} (files : Files)
    (hopen : calls.any SinkCall.starts = true → CanOpen path initial) :
    Agree path initial (calls.any SinkCall.starts)
      (Sink.serve (FileSink.fresh path) initial calls)
      (Sink.serve MemorySink.fresh files calls).1 := by
  induction calls using List.reverseRecOn with
  | nil => exact .untouched
  | append_singleton calls c ih =>
    rw [List.any_append, List.any_cons, List.any_nil, Bool.or_false] at hopen ⊢
    have hagree := ih fun h => hopen (by rw [h, Bool.true_or])
    rw [Sink.serve_concat, Sink.serve_concat]
    exact (hagree.on c _ fun h => hopen (by rw [h, Bool.or_true])).2

/-- Sinks that agree refuse a call only because they are open or closed, and stay as they are. The
files could refuse, too, but not where they could be opened. -/
theorem unchanged (h : Agree path initial started state memory) (c : SinkCall) (files : Files)
    (hopen : c.starts = true → CanOpen path initial) {e : SinkError}
    (he : (c.on memory files).result = .error e) :
    (e = .notOpen ∨ e = .alreadyOpen) ∧ (c.on state.1 state.2).sink = state.1 ∧
      (c.on state.1 state.2).files = state.2 ∧ (c.on memory files).sink = memory := by
  cases h with
  | untouched =>
    cases c with
    | start => exact nomatch he
    | append row => exact ⟨.inl (Except.error.inj he).symm, rfl, rfl, rfl⟩
    | close => exact nomatch he
  | opened tree records ready =>
    cases c with
    | start => exact ⟨.inr (Except.error.inj he).symm, rfl, rfl, rfl⟩
    | append row => exact nomatch he
    | close => exact nomatch he
  | closed tree records ready read =>
    cases c with
    | start => exact nomatch he
    | append row => exact ⟨.inl (Except.error.inj he).symm, rfl, rfl, rfl⟩
    | close => exact nomatch he

/-- Sinks that were opened and are closed have left the records in the file. It is what the last
closing wrote, and nothing has been written since. -/
theorem read_of_closed (h : Agree path initial true state memory) (hclosed : state.1.pending = none) :
    state.2.read path = .ok (Table.text memory.records.toList) := by
  cases h with
  | opened tree records ready => exact nomatch hclosed
  | closed tree records ready read => exact read

end Agree

/-- What opens leaves a sink in memory without rows. -/
theorem MemorySink.records_start {memory : MemorySink} {files : Files}
    (h : (SinkCall.start.on memory files).result = .ok ()) :
    (SinkCall.start.on memory files).sink.records = #[] := by
  obtain ⟨records, isOpen⟩ := memory
  cases isOpen with
  | true => exact nomatch h
  | false => rfl

/-- **The two kinds of sinks are the same sink.** A new sink in a file and a new one in memory get any
calls, and then one more; if the sink is opened at all, the file can be made. Then

* both answer the last call alike, both are open or both are closed, and they count the same rows;
* if they refuse it, then because the sink is not open or is open already, and nothing has changed;
* opening forgets the rows of an earlier run;
* if the sinks are closed again, the file has the header and one line for every record of the sink in
  memory, and is read as such, with the columns and the values of the records as cells. -/
theorem sinks_agree (path : String) (files elsewhere : Files) (calls : List SinkCall) (c : SinkCall)
    (hopen : (calls ++ [c]).any SinkCall.starts = true → CanOpen path files) :
    let before := Sink.serve (FileSink.fresh path) files calls
    let kept := (Sink.serve MemorySink.fresh elsewhere calls).1
    let file := c.on before.1 before.2
    let memory := c.on kept elsewhere
    let rows := Table.rows memory.sink.records.toList
    file.result = memory.result ∧
    file.sink.pending.isSome = memory.sink.isOpen ∧
    Sink.rows file.sink = Sink.rows memory.sink ∧
    (∀ e, memory.result = .error e → (e = .notOpen ∨ e = .alreadyOpen) ∧
      file.sink = before.1 ∧ file.files = before.2 ∧ memory.sink = kept) ∧
    (c = .start → memory.result = .ok () → memory.sink.records = #[]) ∧
    ((calls ++ [c]).any SinkCall.starts = true → file.sink.pending = none →
      ∃ text, file.files.read path = .ok text ∧
        text.toList = (rows.map [','].intercalate).flatMap (· ++ ['\n']) ∧
        (Text.lines text.toList).map (List.splitOn ',') = rows) := by
  intro before kept file memory rows
  rw [List.any_append, List.any_cons, List.any_nil, Bool.or_false] at hopen ⊢
  -- the sinks agree before the last call, so the step lemma says everything about it
  have hbefore : Agree path files (calls.any SinkCall.starts) before kept :=
    .serve elsewhere fun h => hopen (by rw [h, Bool.true_or])
  have hopen' : c.starts = true → CanOpen path files := fun h => hopen (by rw [h, Bool.or_true])
  obtain ⟨hresult, hafter⟩ := hbefore.on c elsewhere hopen'
  refine ⟨hresult, hafter.isOpen, hafter.rows, ?_, ?_, ?_⟩
  · exact fun e he => hbefore.unchanged c elsewhere hopen' he
  · rintro rfl hok
    exact MemorySink.records_start hok
  · intro hstarted hclosed
    rw [hstarted] at hafter
    exact ⟨_, hafter.read_of_closed hclosed, Table.toList_text _, Table.cells_text _⟩

/-- A table that is opened again: refused while it is open, and without the first row once it was
closed. -/
theorem sinks_agree_reopened :
    let first : Row := ⟨0.002, 0.001, 0.001, 2000, 1999, 1, 0, 0, 0.5⟩
    let second : Row := ⟨0.004, 0.003, 0.001, 2000, 1998, 2, 0.5, -0.5, 0.25⟩
    let calls : List SinkCall :=
      [.start, .append first, .start, .close, .append first, .start, .append second, .close]
    let file := Sink.serve (FileSink.fresh "results/events.csv") Files.empty calls
    ∃ text, file.2.read "results/events.csv" = .ok text ∧
      (Text.lines text.toList).map (List.splitOn ',') =
        [Table.columns.map String.toList, (Table.Record.ofRow second).cells] := by
  intro first second calls file
  have hopen : CanOpen "results/events.csv" Files.empty :=
    ⟨⟨[], [(["results"], .directory)]⟩,
      ⟨[], [(["results"], .directory), (["results", "events.csv"], .file "" false)]⟩, rfl, rfl⟩
  obtain ⟨-, hopened, -, -, -, hread⟩ := sinks_agree "results/events.csv" Files.empty Files.empty
    [.start, .append first, .start, .close, .append first, .start, .append second] .close
    fun _ => hopen
  have hclosed := Option.isNone_iff_eq_none.1 (Option.isSome_eq_false_iff.1 hopened)
  obtain ⟨text, htext, -, hcells⟩ := hread rfl hclosed
  exact ⟨text, htext, hcells⟩

end Telescope
