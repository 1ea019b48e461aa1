import Telescope.CommandLine.Arguments
import Telescope.Plan
import Telescope.Run.Replay
import Telescope.Scan.Reading
import Telescope.Scan.Write
import Telescope.Script
import Telescope.Trace.Store
import Telescope.Trace.Synthetic

/-!
# Executing a command line

`CommandLine.execute` does what a command line asks for, on a tree of files. What comes of it is a
value: the exit status, what is printed, what is complained about, and the files afterwards.

The status is 0 if all went well, 1 after a failure and 2 if the command line is not understood.
-/

namespace Telescope.CommandLine

/-- What comes of a command line. -/
structure Outcome where
  /-- the exit status -/
  status : Nat
  /-- what is printed -/
  output : String
  /-- what is complained about -/
  complaint : String
  /-- the files afterwards -/
  files : Files

/-- All went well. -/
def Outcome.done (output : String) (files : Files) : Outcome := ⟨0, output, "", files⟩

/-- A failure, with its cause if that says more. -/
def Outcome.failed (output message : String) (cause : Option String) (files : Files) : Outcome :=
  ⟨1, output, "Error: " ++ message ++ "\n" ++
    (match cause with
      | some cause => "\nCaused by:\n    " ++ cause ++ "\n"
      | none => ""), files⟩

/-- A command line that is not understood. -/
def Outcome.misused (files : Files) : Outcome :=
  ⟨2, "", "Usage: beamscan <COMMAND>\n\nFor more information, try '--help'.\n", files⟩

/-! ## Running events -/

/-- The plan of a macro file, or the default without one. -/
def planOf (macroPath : Option String) (files : Files) : Except (String × String) Plan :=
  match macroPath with
  | none => .ok Plan.default
  | some path =>
    match files.read path with
    | .error cause => .error ("reading macro " ++ path, cause.message)
    | .ok text =>
      match Script.read text with
      | .error cause => .error ("parsing macro " ++ path, cause.message)
      | .ok commands => .ok (Plan.ofCommands commands)

/-- The number of events of a synthetic trace: what the macro asks for, otherwise the option. -/
def eventCount (plan : Plan) (options : RunOptions) : UInt64 :=
  if plan.events > 0 then plan.events else options.events

/-- The settings of a synthetic trace. -/
def syntheticOf (plan : Plan) (options : RunOptions) : Synthetic :=
  { Synthetic.default with events := eventCount plan options, seed := options.seed }

/-- What is said about the cause of an error about a trace. -/
def traceCause : TraceError → Option String
  | .unreadable _ cause | .unwritable _ cause => some cause.message
  | .malformed _ _ => none

/-- What is said about an error of a synthetic trace. -/
def syntheticMessage : SyntheticError → String
  | .unboundedKink => "the kinks of a synthetic trace are not bounded"
  | .undefinedEfficiency => "the efficiency of a synthetic trace is not a number"

/-- The trace of a run: from its file, or a synthetic one. -/
def traceOf (plan : Plan) (layout : Detector.Layout) (options : RunOptions) (files : Files) :
    Except (String × Option String) Trace :=
  match options.tracePath with
  | some path =>
    match Trace.read files path with
    | .ok trace => .ok trace
    | .error e => .error (e.message, traceCause e)
  | none =>
    match (syntheticOf plan options).trace layout plan.gun with
    | .ok trace => .ok trace
    | .error e => .error (syntheticMessage e, none)

/-- Keeps the trace, if that is wanted. -/
def saveTrace (savePath : Option String) (trace : Trace) (files : Files) : Except TraceError Files :=
  match savePath with
  | none => .ok files
  | some path => Trace.write files path trace

/-- The base of the tables if the macro names none. -/
def usualBase : String := "beamscan_output"

/-- The sink of a worker. Only where there are several workers do the names of their files differ. -/
def sinkOf (base : String) (workers worker : Nat) : FileSink :=
  FileSink.forRun base (if workers > 1 then some worker else none)

/-- The report on a run. -/
def runReport (summary : Summary) (metrics : Metrics) (sinks : List FileSink) : String :=
  "Run complete -> events " ++ toString summary.events.toNat
    ++ ", rows " ++ toString summary.accepted.toNat
    ++ ", incomplete " ++ toString summary.incomplete.toNat
    ++ ", degenerate " ++ toString metrics.degenerate.toNat ++ "\n"
    ++ String.join (sinks.map fun s => "  " ++ s.path ++ " (" ++ toString s.rows ++ " rows)\n")

/-- Replays a trace into the tables of a plan. -/
def replay (plan : Plan) (layout : Detector.Layout) (options : RunOptions) (trace : Trace)
    (files : Files) : Outcome :=
  let workers := options.workers.toNat
  let base := plan.outputFile.getD usualBase
  let (host, result) :=
    Replay.execute workers layout plan.gun trace (sinkOf base workers) files
  match result with
  | .error e => .failed "" e.context (some e.cause) host.files
  | .ok result => .done (runReport result.summary host.metrics result.sinks) host.files

/-- Runs events. -/
def run (options : RunOptions) (files : Files) : Outcome :=
  match planOf options.macroPath files with
  | .error (message, cause) => .failed "" message (some cause) files
  | .ok plan =>
    let (layout, _) := Detector.Layout.build plan.detector Catalog.standard
    match traceOf plan layout options files with
    | .error (message, cause) => .failed "" message cause files
    | .ok trace =>
      match saveTrace options.savePath trace files with
      | .error e => .failed "" e.message (traceCause e) files
      | .ok files => replay plan layout options trace files

/-! ## Requests -/

/-- Why a request cannot be loaded. -/
inductive LoadError
  /-- the file cannot be read -/
  | unreadable (path : String) (cause : FileError)
  /-- the file holds no request -/
  | malformed (path : String)
deriving DecidableEq, Repr

/-- The message of an error. -/
def LoadError.message : LoadError → String
  | .unreadable path _ => "reading request " ++ path
  | .malformed path => "parsing request " ++ path

/-- The cause of an error. -/
def LoadError.cause : LoadError → String
  | .unreadable _ cause => cause.message
  | .malformed _ => "the text is no request"

/-- The request of a file. -/
def load (path : String) (files : Files) : Except LoadError Scan.Request :=
  match files.read path with
  | .error cause => .error (.unreadable path cause)
  | .ok text =>
    match Scan.Request.ofYaml? text with
    | none => .error (.malformed path)
    | some request => .ok request

/-- What is wrong with the request of a file. -/
def problemsOf (path : String) (files : Files) : List String :=
  match load path files with
  | .error e => [e.message ++ ": " ++ e.cause]
  | .ok request => (request.problems Catalog.standard).map Scan.Problem.message

/-- The report on a file. -/
def fileReport (path : String) (problems : List String) : String :=
  if problems.isEmpty then "ok      " ++ path ++ "\n"
  else "FAILED  " ++ path ++ "\n" ++ String.join (problems.map fun p => "   - " ++ p ++ "\n")

/-- Checks requests. -/
def validate (paths : List String) (files : Files) : Outcome :=
  let checked := paths.map fun path => (path, problemsOf path files)
  let output := String.join (checked.map fun (path, problems) => fileReport path problems)
  let failed := (checked.filter fun (_, problems) => !problems.isEmpty).length
  if failed = 0 then .done output files
  else
    .failed output (toString failed ++ " of " ++ toString paths.length
      ++ " request file(s) failed validation") none files

/-- What is said about the cause of an error about a scan. -/
def writeCause : Scan.WriteError → Option String
  | .macroDirectory _ cause | .resultDirectory _ cause | .macroFile _ cause | .script _ cause
  | .executable _ cause => some cause.message
  | .unknownParticle _ => none

/-- Writes the macros of a scan. -/
def generate (options : GenerateOptions) (files : Files) : Outcome :=
  let path := options.requestPath
  match load path files with
  | .error e => .failed "" e.message (some e.cause) files
  | .ok request =>
    match (request.problems Catalog.standard).map Scan.Problem.message with
    | problem :: more =>
      .failed "" ("invalid request " ++ path ++ ": " ++ "; ".intercalate (problem :: more)) none files
    | [] =>
      match request.write path options.macroDirectory options.resultDirectory files with
      | (files, .error e) => .failed "" e.message (writeCause e) files
      | (files, .ok written) =>
        .done ("Generated " ++ toString written.length ++ " macro(s); run script "
          ++ Scan.scriptPath options.macroDirectory ++ "\n") files

/-! ## Materials -/

/-- A text filled up with blanks behind it. -/
def padEnd (width : Nat) (text : String) : String :=
  text ++ String.ofList (List.replicate (width - text.length) ' ')

/-- A text filled up with blanks before it. -/
def padStart (width : Nat) (text : String) : String :=
  String.ofList (List.replicate (width - text.length) ' ') ++ text

/-- The line of a material. -/
def materialLine (m : Material) : String :=
  padEnd 24 m.name ++ " " ++ padStart 10 (Fixed.write 5 m.density) ++ " g/cm3  X0 "
    ++ padStart 10 (Fixed.write 3 m.radiationLength) ++ " cm\n"

/-- The list of all materials. -/
def materialList (catalog : Catalog) : String :=
  String.join ((catalog.names.filterMap catalog.find?).map materialLine)

/-! ## All commands -/

/-- Does what is asked for. -/
def Invocation.execute (files : Files) : Invocation → Outcome
  | .run options => CommandLine.run options files
  | .validate paths => CommandLine.validate paths files
  | .generate options => CommandLine.generate options files
  | .materials => .done (materialList Catalog.standard) files
  | .help text => .done text files

/-- Does what a command line asks for. -/
def execute (words : List String) (files : Files) : Outcome :=
  match Invocation.ofWords? words with
  | some invocation => invocation.execute files
  | none => .misused files

end Telescope.CommandLine
