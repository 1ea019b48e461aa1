import Telescope.Files.Tree
import Telescope.Scan.Point

/-!
# Writing a scan

Every point of a scan gets a macro in one directory and a directory for its results in another. A
shell script beside the macros runs all of them. What was written before a failure stays.
-/

namespace Telescope.Scan

/-- Why a scan cannot be written. -/
inductive WriteError
  /-- the directory of the macros cannot be made -/
  | macroDirectory (path : String) (cause : FileError)
  /-- no species has the beam's name -/
  | unknownParticle (particle : String)
  /-- the directory for the results of a point cannot be made -/
  | resultDirectory (path : String) (cause : FileError)
  /-- the macro of a point cannot be written -/
  | macroFile (path : String) (cause : FileError)
  /-- the script cannot be written -/
  | script (path : String) (cause : FileError)
  /-- the script cannot be made executable -/
  | executable (path : String) (cause : FileError)
deriving DecidableEq, Repr

/-- The message of an error, without the cause. -/
def WriteError.message : WriteError → String
  | .macroDirectory path _ => "creating macro directory " ++ path
  | .unknownParticle particle => Particle.unknownMessage particle
  | .resultDirectory path _ => "creating result directory " ++ path
  | .macroFile path _ => "writing macro " ++ path
  | .script path _ => "writing " ++ path
  | .executable path _ => "marking " ++ path ++ " executable"

/-- The path of the macro of a point. -/
def Point.macroPath (directory : String) (p : Point) : String :=
  Path.join directory (p.stem ++ ".mac")

/-- The path of the script. -/
def scriptPath (directory : String) : String := Path.join directory "run_all.sh"

/-- The part of the script that runs a macro. -/
def scriptPart (macroPath : String) : String :=
  "echo \"Running " ++ Path.fileName macroPath ++ "...\"\n"
    ++ "\"$BEAMSCAN\" run -m " ++ macroPath ++ "\n\n"

/-- The script that runs some macros. -/
def script (requestPath : String) (macroPaths : List String) : String :=
  "#!/bin/bash\n# Auto-generated: run all BeamScan simulations\n"
    ++ "# From request: " ++ requestPath ++ "\n\n"
    ++ "BEAMSCAN=\"$\x7bBEAMSCAN_BIN:-./target/release/beamscan\x7d\"\n\n"
    ++ String.join (macroPaths.map scriptPart)
    ++ "echo \"All simulations complete.\"\n"

/-- Writes one point: makes the directory for its results and writes its macro. -/
def writePoint (results directory : String) (p : Point) (files : Files) :
    Files × Except WriteError Unit :=
  let resultPath := Request.resultDirectory results p.stem
  match files.makeDirectories resultPath with
  | (files, .error cause) => (files, .error (.resultDirectory resultPath cause))
  | (files, .ok ()) =>
    let path := p.macroPath directory
    match files.write path p.macroText with
    | .error cause => (files, .error (.macroFile path cause))
    | .ok files => (files, .ok ())

/-- Writes some points, up to the first failure. -/
def writePoints (results directory : String) : List Point → Files → Files × Except WriteError Unit
  | [], files => (files, .ok ())
  | p :: rest, files =>
    match writePoint results directory p files with
    | (files, .error e) => (files, .error e)
    | (files, .ok ()) => writePoints results directory rest files

/-- Writes the script and makes it executable. -/
def writeScript (requestPath directory : String) (macroPaths : List String) (files : Files) :
    Files × Except WriteError Unit :=
  let path := scriptPath directory
  match files.write path (script requestPath macroPaths) with
  | .error cause => (files, .error (.script path cause))
  | .ok files =>
    match files.allowExecution path with
    | .error cause => (files, .error (.executable path cause))
    | .ok files => (files, .ok ())

/-- Writes a scan. Returns the paths of the macros, in the order of the points. -/
def Request.write (request : Request) (requestPath directory results : String) (files : Files) :
    Files × Except WriteError (List String) :=
  match files.makeDirectories directory with
  | (files, .error cause) => (files, .error (.macroDirectory directory cause))
  | (files, .ok ()) =>
    match request.points? results with
    | none => (files, .error (.unknownParticle request.beam.particle))
    | some points =>
      match writePoints results directory points files with
      | (files, .error e) => (files, .error e)
      | (files, .ok ()) =>
        let paths := points.map (Point.macroPath directory)
        let (files, result) := writeScript requestPath directory paths files
        (files, result.map fun () => paths)

end Telescope.Scan
