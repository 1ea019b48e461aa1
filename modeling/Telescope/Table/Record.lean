import Telescope.Decimal.Style
import Telescope.Event.Outcome
import Telescope.Unit

/-!
# Table records

The table has one record for every accepted event, in the units in which results are presented:
milliradians, GeV and MeV, and millimetres. As text it is a header line and one line for every
record, with the cells separated by commas.
-/

namespace Telescope

namespace Table

/-- The name of the table. -/
def name : String := "beamscan"

/-- The title of the table. -/
def title : String := "BeamScan MCS and energy loss data"

/-- The columns in order. -/
def columns : List String :=
  ["theta3D_mrad", "thetaX_mrad", "thetaY_mrad", "pIn_GeV", "pOut_GeV", "deltaP_MeV", "xTarget_mm",
    "yTarget_mm", "caloEdep_MeV"]

/-- One record. -/
structure Record where
  /-- the scattering angle in space, in mrad -/
  theta3d : Float
  /-- its horizontal projection, in mrad -/
  thetaX : Float
  /-- its vertical projection, in mrad -/
  thetaY : Float
  /-- the momentum before the target, in GeV -/
  pIn : Float
  /-- the momentum behind the target, in GeV -/
  pOut : Float
  /-- the momentum lost, in MeV -/
  deltaP : Float
  /-- where the target was crossed horizontally, in mm -/
  xTarget : Float
  /-- where the target was crossed vertically, in mm -/
  yTarget : Float
  /-- the energy left in the calorimeter, in MeV -/
  caloEdep : Float

namespace Record

/-- The record of a row. -/
def ofRow (row : Row) : Record where
  theta3d := row.theta3d / Unit.mrad
  thetaX := row.thetaX / Unit.mrad
  thetaY := row.thetaY / Unit.mrad
  pIn := row.pIn / Unit.gev
  pOut := row.pOut / Unit.gev
  deltaP := row.deltaP / Unit.mev
  xTarget := row.xTarget / Unit.mm
  yTarget := row.yTarget / Unit.mm
  caloEdep := row.caloEdep / Unit.mev

/-- The values in the order of the columns. -/
def values (r : Record) : List Float :=
  [r.theta3d, r.thetaX, r.thetaY, r.pIn, r.pOut, r.deltaP, r.xTarget, r.yTarget, r.caloEdep]

/-- The fields as a record is written, each with its name. This order is its own: it is that of the
columns because both were written down alike, not because one is made from the other. -/
def fields (r : Record) : List (String × Float) :=
  [("theta3D_mrad", r.theta3d), ("thetaX_mrad", r.thetaX), ("thetaY_mrad", r.thetaY),
    ("pIn_GeV", r.pIn), ("pOut_GeV", r.pOut), ("deltaP_MeV", r.deltaP),
    ("xTarget_mm", r.xTarget), ("yTarget_mm", r.yTarget), ("caloEdep_MeV", r.caloEdep)]

/-- The fields stand in the order of the columns, so what is written under a column is the value that
belongs to it. -/
theorem unzip_fields (r : Record) : r.fields.unzip = (columns, r.values) := rfl

end Record

/-! ## Text -/

/-- Cells change to an exponent below `1e-5` and from `1e16` on, and show a fraction always. -/
def cell : NumberStyle where
  positional := some (-4, 16)
  wholeFraction := true
  plusSign := false
  tie := .even

/-- A line of cells. -/
def line (cells : List String) : String :=
  ",".intercalate cells ++ "\n"

/-- The header line. -/
def header : String := line columns

/-- The line of a record. -/
def Record.line (r : Record) : String :=
  Table.line (r.fields.map fun field => cell.write field.2)

/-- The text of a table. -/
def text (records : List Record) : String :=
  header ++ String.join (records.map Record.line)

end Table

end Telescope
