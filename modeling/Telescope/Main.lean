import Telescope.CommandLine.Execute

/-!
# The program

Reads the files that the command line needs, does what it asks for, and writes what has changed.
Paths are taken below the working directory.
-/

namespace Telescope

/-- The rights of a script: its owner may change it, and everybody may run it. -/
def scriptRights : IO.FileRight where
  user := ⟨true, true, true⟩
  group := ⟨true, false, true⟩
  other := ⟨true, false, true⟩

/-- The texts of the files that can be read. -/
def readTexts : List String → IO (List (String × String))
  | [] => pure []
  | path :: rest => do
    let found ← try pure [(path, ← IO.FS.readFile path)] catch _ => pure []
    return found ++ (← readTexts rest)

/-- Writes one entry. -/
def writeEntry (place : List String) (entry : Entry) : IO Unit := do
  let path := "/".intercalate place
  match entry with
  | .directory => IO.FS.createDirAll path
  | .file text executable =>
    IO.FS.writeFile path text
    if executable then IO.setAccessRights path scriptRights

end Telescope

open Telescope in
/-- The program: the exit status says how it went. -/
def main (words : List String) : IO UInt32 := do
  let inputs := ((CommandLine.Invocation.ofWords? words).map (·.inputs)).getD []
  let before := Files.ofTexts (← readTexts inputs)
  let outcome := CommandLine.execute words before
  for (place, entry) in outcome.files.since before do
    writeEntry place entry
  (← IO.getStdout).putStr outcome.output
  (← IO.getStderr).putStr outcome.complaint
  return UInt32.ofNat outcome.status
