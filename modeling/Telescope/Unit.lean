/-!
# Units

Inside the library lengths are in millimetres, energies and momenta in MeV, angles in radians and
fields in tesla. A value in another unit is multiplied by that unit when it comes in and divided by
it when it goes out.
-/

namespace Telescope.Unit

/-- One millimetre. -/
def mm : Float := 1.0
/-- One micrometre. -/
def um : Float := 1.0e-3 * mm
/-- One centimetre. -/
def cm : Float := 10.0 * mm
/-- One metre. -/
def m : Float := 1000.0 * mm

/-- One mega-electronvolt. -/
def mev : Float := 1.0
/-- One kilo-electronvolt. -/
def kev : Float := 1.0e-3 * mev
/-- One giga-electronvolt. -/
def gev : Float := 1000.0 * mev

/-- One radian. -/
def rad : Float := 1.0
/-- One thousandth of a radian. -/
def mrad : Float := 1.0e-3 * rad

/-- The unit of length with this symbol. -/
def length? : String → Option Float
  | "um" => some um
  | "mm" => some mm
  | "cm" => some cm
  | "m" => some m
  | _ => none

/-- The unit of energy with this symbol; upper and lower case differ. -/
def energy? : String → Option Float
  | "keV" => some kev
  | "MeV" => some mev
  | "GeV" => some gev
  | _ => none

end Telescope.Unit
