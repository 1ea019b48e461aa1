import Telescope.Decimal.Reader
import Telescope.Gun
import Telescope.Text.Blank

/-!
# Commands

A macro line is a command word followed by its parameters, `/beamscan/target/thickness 5 mm`. This
module has

* `Command`, what a line asks for, in the library's units;
* `CommandError`, why a line asks for nothing, and the message of each error;
* `Command.ofLine`, which reads one line. Parameters are taken from the front of the words one after
  the other; words that no parameter takes are left over.
-/

namespace Telescope

/-- What a macro line asks for. -/
inductive Command
  /-- the target is made of this material -/
  | targetMaterial (name : String)
  /-- the target is so thick, in mm -/
  | targetThickness (thickness : Float)
  /-- the magnet is on or off -/
  | useMagnet (on : Bool)
  /-- the field of the magnet in tesla -/
  | magnetField (tesla : Float)
  /-- the gun fires this species -/
  | gunParticle (particle : Particle)
  /-- the gun's kinetic energy in MeV -/
  | gunEnergy (energy : Float)
  /-- the gun's direction, of any length but zero -/
  | gunDirection (direction : Vector3)
  /-- the gun's position in mm -/
  | gunPosition (position : Vector3)
  /-- the table goes to this file -/
  | outputFile (name : String)
  /-- the run is prepared -/
  | prepare
  /-- so many events are run -/
  | beamOn (events : UInt64)
  /-- how much is said; accepted, and of no effect -/
  | verbosity

/-- Why a line is refused. -/
inductive CommandError
  /-- the first word is no command -/
  | unknownCommand (command : String)
  /-- the line ends before this parameter -/
  | missingParameter (command : String) (parameter : String)
  /-- this word is no value of its parameter -/
  | invalidValue (command : String) (value : String)
  /-- the number is outside the range of its parameter -/
  | outOfRange (command : String) (value : Float) (constraint : String)
  /-- this word is no unit of the wanted kind -/
  | unknownUnit (command : String) (unit : String)

/-- The message of an error. -/
def CommandError.message : CommandError → String
  | .unknownCommand command => "unknown command: " ++ command
  | .missingParameter command parameter => command ++ ": missing parameter " ++ parameter
  | .invalidValue command value => command ++ ": invalid value " ++ Text.quote value
  | .outOfRange command value constraint =>
    command ++ ": " ++ NumberStyle.plain.write value ++ " violates " ++ constraint
  | .unknownUnit command unit => command ++ ": unknown unit " ++ Text.quote unit

/-! ## Parameters -/

/-- A reader of parameters: it takes words from the front of those that are left, or refuses. -/
abbrev Parameters := StateT (List String) (Except CommandError)

namespace Parameters

/-- The next word. -/
def next (command parameter : String) : Parameters String := fun words =>
  match words with
  | [] => .error (.missingParameter command parameter)
  | word :: rest => .ok (word, rest)

/-- A finite number. -/
def number (command parameter : String) : Parameters Float := do
  let word ← next command parameter
  match readFloat? word.toList with
  | some x => if x.isFinite then pure x else throw (.invalidValue command word)
  | none => throw (.invalidValue command word)

/-- Three finite numbers. -/
def vector (command : String) : Parameters Vector3 := do
  let x ← number command "x"
  let y ← number command "y"
  let z ← number command "z"
  pure ⟨x, y, z⟩

/-- The factor of a unit, or the usual one if the line has ended. -/
def unit (command : String) (usual : Float) (unit? : String → Option Float) : Parameters Float :=
  fun words =>
    match words with
    | [] => .ok (usual, [])
    | word :: rest =>
      match unit? word with
      | some factor => .ok (factor, rest)
      | none => .error (.unknownUnit command word)

/-- A switch: `true` or `1`, `false` or `0`. -/
def switch (command parameter : String) : Parameters Bool := do
  let word ← next command parameter
  match word with
  | "true" | "1" => pure true
  | "false" | "0" => pure false
  | _ => throw (.invalidValue command word)

end Parameters

/-! ## Lines -/

namespace Command

open Parameters in
/-- Reads the parameters of a command. A thickness and an energy are checked after the unit has been
applied; the message shows the number as it was given. -/
def parameters (command : String) : Parameters Command := do
  match command with
  | "/beamscan/target/material" => return .targetMaterial (← next command "mat")
  | "/beamscan/target/thickness" =>
    let value ← number command "t"
    let thickness := value * (← unit command Unit.mm Unit.length?)
    if thickness <= 0.0 then throw (.outOfRange command value "t>0.")
    return .targetThickness thickness
  | "/beamscan/target/useMagnet" => return .useMagnet (← switch command "flag")
  | "/beamscan/target/magnetFieldT" =>
    let field ← number command "B"
    if field < 0.0 then throw (.outOfRange command field "B>=0.")
    return .magnetField field
  | "/gun/particle" =>
    let name ← next command "particle"
    match Particle.ofName? name with
    | some particle => return .gunParticle particle
    | none => throw (.invalidValue command name)
  | "/gun/energy" =>
    let value ← number command "energy"
    let energy := value * (← unit command Unit.gev Unit.energy?)
    if energy <= 0.0 then throw (.outOfRange command value "energy>0.")
    return .gunEnergy energy
  | "/gun/direction" =>
    let direction ← vector command
    if direction.norm == 0.0 then throw (.invalidValue command "0 0 0")
    return .gunDirection direction
  | "/gun/position" =>
    let position ← vector command
    return .gunPosition (position.scale (← unit command Unit.cm Unit.length?))
  | "/beamscan/output/filename" => return .outputFile (← next command "filename")
  | "/run/initialize" => return .prepare
  | "/run/beamOn" =>
    let word ← next command "events"
    match readUnsigned? word.toList with
    | some events => return .beamOn events
    | none => throw (.invalidValue command word)
  | "/control/verbose" | "/run/verbose" | "/event/verbose" | "/tracking/verbose" =>
    return .verbosity
  | _ => throw (.unknownCommand command)

/-- The command that a list of words stands for. -/
def ofWords : List String → Except CommandError Command
  | [] => .error (.unknownCommand "")
  | command :: rest => (parameters command rest).map (·.1)

/-- The command that a line stands for. -/
def ofLine (line : List Char) : Except CommandError Command :=
  ofWords ((Text.words line).map String.ofList)

end Command

end Telescope
