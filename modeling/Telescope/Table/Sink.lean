import Telescope.Files.Tree
import Telescope.Log
import Telescope.Table.Name

/-!
# Sinks

A sink takes the rows of a run. It is opened once for every run, which forgets the rows of the run
before; rows are appended while it is open; closing a closed sink does nothing. There are two kinds:

* `MemorySink` keeps the records;
* `FileSink` writes them to a file when it is closed or released.

Both are instances of the class `Sink`, through which workers use them. Every operation returns what
has become of the sink and of the files, also when it fails.
-/

namespace Telescope

/-- Why a sink refused an operation. -/
inductive SinkError
  /-- the directory for the file cannot be made -/
  | directory (cause : FileError)
  /-- the file cannot be written -/
  | file (cause : FileError)
  /-- a row came while the sink was closed -/
  | notOpen
  /-- the sink was opened twice -/
  | alreadyOpen
deriving DecidableEq, Repr

/-- The message of a refusal. -/
def SinkError.message : SinkError → String
  | .directory cause => "output i/o: " ++ cause.message
  | .file cause => "csv writer: " ++ cause.message
  | .notOpen => "output sink is not open"
  | .alreadyOpen => "output sink is already open"

/-- What an operation on a sink leaves behind. -/
structure SinkReply (S : Type) where
  /-- the sink afterwards -/
  sink : S
  /-- the files afterwards -/
  files : Files
  /-- what is reported -/
  logs : List Log.Record
  /-- whether the operation was carried out -/
  result : Except SinkError Unit

/-- The operations on a sink. -/
class Sink (S : Type) where
  /-- opens the sink for a run, without rows -/
  start : S → Files → SinkReply S
  /-- appends a row -/
  append : S → Files → Row → SinkReply S
  /-- closes the sink -/
  close : S → Files → SinkReply S
  /-- gives the sink up, open or not -/
  release : S → Files → Files
  /-- the number of rows since the sink was opened -/
  rows : S → Nat

/-! ## Records in memory -/

/-- A sink that keeps its records. -/
structure MemorySink where
  /-- the records of the last run, in order -/
  records : Array Table.Record
  /-- whether the sink is open -/
  isOpen : Bool

namespace MemorySink

/-- A sink that was never opened. -/
def fresh : MemorySink := ⟨#[], false⟩

instance : Inhabited MemorySink := ⟨fresh⟩

/-- Opens the sink. -/
def start (sink : MemorySink) : Except SinkError MemorySink :=
  if sink.isOpen then .error .alreadyOpen else .ok ⟨#[], true⟩

/-- Appends a row. -/
def append (sink : MemorySink) (row : Row) : Except SinkError MemorySink :=
  if sink.isOpen then .ok { sink with records := sink.records.push (Table.Record.ofRow row) }
  else .error .notOpen

/-- Closes the sink. -/
def close (sink : MemorySink) : MemorySink := { sink with isOpen := false }

/-- The reply of an operation that leaves a refused sink as it was. -/
def reply (sink : MemorySink) (files : Files) (result : Except SinkError MemorySink) :
    SinkReply MemorySink :=
  match result with
  | .ok next => ⟨next, files, [], .ok ()⟩
  | .error e => ⟨sink, files, [], .error e⟩

instance : Sink MemorySink where
  start sink files := sink.reply files sink.start
  append sink files row := sink.reply files (sink.append row)
  close sink files := ⟨sink.close, files, [], .ok ()⟩
  release _ files := files
  rows sink := sink.records.size

end MemorySink

/-! ## Records in a file -/

/-- A sink that writes its records to a file. -/
structure FileSink where
  /-- the path of the file -/
  path : String
  /-- the records not yet written, if the sink is open -/
  pending : Option (Array Table.Record)
  /-- the number of rows since the sink was opened -/
  rows : Nat

namespace FileSink

/-- The sink of a run's table. -/
def forRun (base : String) (worker : Option Nat) : FileSink := ⟨Table.path base worker, none, 0⟩

/-- The report on an opened table. -/
def openedReport (path : String) : Log.Record :=
  Log.info ("opened " ++ Table.name ++ " (" ++ Table.title ++ ") at " ++ path)

/-- The report on a closed table. -/
def closedReport (path : String) (rows : Nat) : Log.Record :=
  Log.info ("closed output table " ++ path ++ " (" ++ toString rows ++ " rows)")

/-- Makes the directory of a path, if the path names one. -/
def makeDirectory (path : String) (files : Files) : Files × Except FileError Unit :=
  match Path.directory? path with
  | none => (files, .ok ())
  | some directory => files.makeDirectories directory

/-- Opens the sink: makes the directory and an empty file. -/
def start (sink : FileSink) (files : Files) : SinkReply FileSink :=
  match sink.pending with
  | some _ => ⟨sink, files, [], .error .alreadyOpen⟩
  | none =>
    match makeDirectory sink.path files with
    | (files, .error e) => ⟨sink, files, [], .error (.directory e)⟩
    | (files, .ok ()) =>
      match files.write sink.path "" with
      | .error e => ⟨sink, files, [], .error (.file e)⟩
      | .ok files => ⟨⟨sink.path, some #[], 0⟩, files, [openedReport sink.path], .ok ()⟩

/-- Appends a row. -/
def append (sink : FileSink) (files : Files) (row : Row) : SinkReply FileSink :=
  match sink.pending with
  | none => ⟨sink, files, [], .error .notOpen⟩
  | some records =>
    ⟨⟨sink.path, some (records.push (Table.Record.ofRow row)), sink.rows + 1⟩, files, [], .ok ()⟩

/-- Closes the sink: the file gets the header and the records. -/
def close (sink : FileSink) (files : Files) : SinkReply FileSink :=
  match sink.pending with
  | none => ⟨sink, files, [], .ok ()⟩
  | some records =>
    let closed : FileSink := { sink with pending := none }
    match files.write sink.path (Table.text records.toList) with
    | .error e => ⟨closed, files, [], .error (.file e)⟩
    | .ok files => ⟨closed, files, [closedReport sink.path sink.rows], .ok ()⟩

instance : Sink FileSink where
  start := start
  append := append
  close := close
  release sink files := (sink.close files).files
  rows := rows

end FileSink

end Telescope
