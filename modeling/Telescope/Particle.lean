import Telescope.Text.Quoted
import Telescope.Unit

/-!
# Beam particles

The species that the beam can consist of. Each has a name, by which macros and requests refer to it,
and a rest mass.
-/

namespace Telescope

/-- A beam particle. -/
inductive Particle
  /-- the electron -/
  | electron
  /-- the positron -/
  | positron
  /-- the negative muon -/
  | muonMinus
  /-- the positive muon -/
  | muonPlus
  /-- the negative pion -/
  | pionMinus
  /-- the positive pion -/
  | pionPlus
  /-- the proton -/
  | proton
deriving DecidableEq, Repr, Inhabited

namespace Particle

/-- All species, in the order in which they are listed. -/
def all : List Particle :=
  [.electron, .positron, .muonMinus, .muonPlus, .pionMinus, .pionPlus, .proton]

/-- The list has all species. -/
theorem mem_all (p : Particle) : p ∈ all := by
  cases p <;> decide

/-- The name of a species. -/
def name : Particle → String
  | .electron => "e-"
  | .positron => "e+"
  | .muonMinus => "mu-"
  | .muonPlus => "mu+"
  | .pionMinus => "pi-"
  | .pionPlus => "pi+"
  | .proton => "proton"

/-- The rest mass in MeV. -/
def mass (p : Particle) : Float :=
  let mev := match p with
    | .electron | .positron => 0.51099895
    | .muonMinus | .muonPlus => 105.6583755
    | .pionMinus | .pionPlus => 139.57039
    | .proton => 938.27208816
  mev * Unit.mev

/-- The species with this name. -/
def ofName? (text : String) : Option Particle :=
  all.find? fun p => p.name == text

/-- Every species is found by its name. -/
theorem ofName?_name (p : Particle) : ofName? p.name = some p := by
  cases p <;> decide

/-- The message about a name that no species has. -/
def unknownMessage (text : String) : String :=
  "unknown particle " ++ Text.quote text

end Particle

end Telescope
