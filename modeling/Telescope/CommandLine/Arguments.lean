import Telescope.CommandLine.Help
import Telescope.Decimal.Reader

/-!
# Arguments

The words of a command line name a command, set its options and give its operands. An option takes a
value, which is the next word, or follows an equals sign, or follows the letter of the option at once.
A word that begins with a hyphen is no value and no operand, except the hyphen alone; after a word of
two hyphens all words are operands. No option may be set twice, and file names are not empty. The
wish for help ends the words that count: what stands before it has to be in order, but need not be
complete, and what follows it is not looked at.
-/

namespace Telescope.CommandLine

/-- The settings of a run. -/
structure RunOptions where
  /-- the macro, if there is one -/
  macroPath : Option String
  /-- the trace, if there is one -/
  tracePath : Option String
  /-- the number of workers -/
  workers : UInt64
  /-- the number of events, if the macro gives none -/
  events : UInt64
  /-- the seed of a synthetic trace -/
  seed : UInt64
  /-- where the trace is kept, if it is -/
  savePath : Option String

/-- The settings of the macros of a scan. -/
structure GenerateOptions where
  /-- the request -/
  requestPath : String
  /-- the directory of the macros -/
  macroDirectory : String
  /-- the directory of the results -/
  resultDirectory : String

/-- What a command line asks for. -/
inductive Invocation
  /-- events are run -/
  | run (options : RunOptions)
  /-- requests are checked -/
  | validate (paths : List String)
  /-- the macros of a scan are written -/
  | generate (options : GenerateOptions)
  /-- the materials are listed -/
  | materials
  /-- a text is shown -/
  | help (text : String)

/-- The files that are read for it. -/
def Invocation.inputs : Invocation → List String
  | .run options => options.macroPath.toList ++ options.tracePath.toList
  | .validate paths => paths
  | .generate options => [options.requestPath]
  | .materials | .help _ => []

/-! ## Words -/

/-- An option of a command. -/
structure OptionName where
  /-- its name after two hyphens -/
  long : String
  /-- its letter after one hyphen -/
  letter : Option Char

/-- A word of a command line, with the words that belong to it. -/
inductive Part
  /-- an option with its value -/
  | option (name value : String)
  /-- an operand -/
  | operand (value : String)
  /-- the wish for help -/
  | help

/-- Whether a word can be a value or an operand. -/
def isValue (word : String) : Bool :=
  match word.toList with
  | '-' :: _ :: _ => false
  | _ => true

/-- A text cut at its first equals sign. -/
def cutEquals (cs : List Char) : String × Option String :=
  (String.ofList (cs.takeWhile (· != '=')),
    match cs.dropWhile (· != '=') with
    | _ :: value => some (String.ofList value)
    | [] => none)

/-- The option and the value that a word holds, the latter if it holds one. -/
def optionOf? (options : List OptionName) (word : String) : Option (String × Option String) :=
  match word.toList with
  | '-' :: '-' :: rest =>
    let (name, value) := cutEquals rest
    (options.find? (·.long == name)).map fun o => (o.long, value)
  | '-' :: letter :: rest =>
    (options.find? (·.letter == some letter)).map fun o =>
      (o.long, match rest with
        | [] => none
        | '=' :: value => some (String.ofList value)
        | value => some (String.ofList value))
  | _ => none

/-- The parts of a command line up to the wish for help; `none` if a word is out of place. -/
def parts? (options : List OptionName) : List String → Option (List Part)
  | [] => some []
  | word :: rest =>
    if word == "--" then some (rest.map .operand)
    else if word == "--help" || word.startsWith "-h" then some [.help]
    else if isValue word then (parts? options rest).map (.operand word :: ·)
    else
      match optionOf? options word with
      | none => none
      | some (name, some value) => (parts? options rest).map (.option name value :: ·)
      | some (name, none) =>
        match rest with
        | value :: rest =>
          if isValue value then (parts? options rest).map (.option name value :: ·) else none
        | [] => none

/-- The operands. -/
def operands (parts : List Part) : List String :=
  parts.filterMap fun
    | .operand value => some value
    | _ => none

/-- The values that an option has. -/
def valuesOf (name : String) (parts : List Part) : List String :=
  parts.filterMap fun
    | .option n value => if n == name then some value else none
    | _ => none

/-- Whether help is wanted. -/
def wantsHelp (parts : List Part) : Bool :=
  parts.any fun
    | .help => true
    | _ => false

/-! ## Values -/

/-- A file name. -/
def path? (value : String) : Option String :=
  if value.isEmpty then none else some value

/-- A number. -/
def number? (value : String) : Option UInt64 := readUnsigned? value.toList

/-- The value of an option that may be set once; `none` in `some` if it is not set. -/
def single? {α : Type} (read? : String → Option α) (name : String) (parts : List Part) :
    Option (Option α) :=
  match valuesOf name parts with
  | [] => some none
  | [value] => (read? value).map some
  | _ => none

/-! ## Commands -/

/-- The options of a run. -/
def runOptionNames : List OptionName :=
  [⟨"macro", some 'm'⟩, ⟨"trace", none⟩, ⟨"workers", none⟩, ⟨"events", none⟩, ⟨"seed", none⟩,
    ⟨"save-trace", none⟩]

/-- The options of the macros of a scan. -/
def generateOptionNames : List OptionName := [⟨"output-dir", none⟩, ⟨"results-dir", none⟩]

/-- The options of a command. -/
def optionNames : String → List OptionName
  | "run" => runOptionNames
  | "generate" => generateOptionNames
  | _ => []

/-- The settings of a run. -/
def runOptions? (parts : List Part) : Option RunOptions := do
  let macroPath ← single? path? "macro" parts
  let tracePath ← single? path? "trace" parts
  let workers ← single? number? "workers" parts
  let events ← single? number? "events" parts
  let seed ← single? number? "seed" parts
  let savePath ← single? path? "save-trace" parts
  if !(operands parts).isEmpty then none
  return ⟨macroPath, tracePath, workers.getD 1, events.getD 100, seed.getD 0, savePath⟩

/-- The requests to be checked; `none` in `some` if there are none yet. -/
def requestPaths? (parts : List Part) : Option (Option (List String)) := do
  let paths ← (operands parts).mapM path?
  return if paths.isEmpty then none else some paths

/-- The settings of the macros of a scan; `none` in `some` if the request is not named yet. -/
def generateOptions? (parts : List Part) : Option (Option GenerateOptions) := do
  let macroDirectory ← single? path? "output-dir" parts
  let resultDirectory ← single? path? "results-dir" parts
  match operands parts with
  | [] => return none
  | [request] =>
    return some ⟨← path? request, macroDirectory.getD "macros/auto",
      resultDirectory.getD "results/beamscan"⟩
  | _ => none

/-- What the parts after the name of a command ask for: `none` if one of them is wrong, `none` in
`some` if nothing is wrong but something is missing. -/
def asked? (command : String) (parts : List Part) : Option (Option Invocation) :=
  match command with
  | "run" => (runOptions? parts).map fun options => some (.run options)
  | "validate" => (requestPaths? parts).map (·.map .validate)
  | "generate" => (generateOptions? parts).map (·.map .generate)
  | "materials" => if (operands parts).isEmpty then some (some .materials) else none
  | _ => none

/-- What the words after the name of a command ask for. Help is given even if something is missing. -/
def commandOf? (command : String) (words : List String) : Option Invocation := do
  let parts ← parts? (optionNames command) words
  let asked ← asked? command parts
  if wantsHelp parts then (commandHelp? command).map .help else asked

/-- What a command line asks for; `none` if it is not understood. -/
def Invocation.ofWords? : List String → Option Invocation
  | [] => none
  | word :: rest =>
    if word == "--help" || word.startsWith "-h" then some (.help programHelp)
    else if word == "--version" || word.startsWith "-V" then some (.help versionText)
    else if word == "help" then
      match rest with
      | [] => some (.help programHelp)
      | [command] => (commandHelp? command).map .help
      | _ => none
    else commandOf? word rest

end Telescope.CommandLine
