/-!
# Materials

A material is a mixture of elements by mass. Its radiation length follows from the composition: each
element contributes by Dahl's fit, and the inverse lengths of a mixture add up in proportion to the
mass fractions. The fractions need not sum to one; they are divided by their sum first.
-/

namespace Telescope

/-! ## Elements -/

/-- A chemical element. -/
structure Element where
  /-- its symbol -/
  symbol : String
  /-- its atomic number -/
  z : UInt32
  /-- its molar mass in g/mol -/
  a : Float

namespace Element

/-- The radiation length in g/cm², by Dahl's fit. -/
def radiationLength (e : Element) : Float :=
  let z := e.z.toFloat
  716.4 * e.a / (z * (z + 1.0) * (287.0 / z.sqrt).log)

/-- H -/
def hydrogen : Element := ⟨"H", 1, 1.008⟩
/-- C -/
def carbon : Element := ⟨"C", 6, 12.011⟩
/-- N -/
def nitrogen : Element := ⟨"N", 7, 14.007⟩
/-- O -/
def oxygen : Element := ⟨"O", 8, 15.999⟩
/-- Na -/
def sodium : Element := ⟨"Na", 11, 22.990⟩
/-- Mg -/
def magnesium : Element := ⟨"Mg", 12, 24.305⟩
/-- Al -/
def aluminium : Element := ⟨"Al", 13, 26.982⟩
/-- Si -/
def silicon : Element := ⟨"Si", 14, 28.085⟩
/-- Cl -/
def chlorine : Element := ⟨"Cl", 17, 35.45⟩
/-- Ar -/
def argon : Element := ⟨"Ar", 18, 39.948⟩
/-- K -/
def potassium : Element := ⟨"K", 19, 39.098⟩
/-- Ca -/
def calcium : Element := ⟨"Ca", 20, 40.078⟩
/-- Fe -/
def iron : Element := ⟨"Fe", 26, 55.845⟩
/-- Pb -/
def lead : Element := ⟨"Pb", 82, 207.2⟩

/-- The elements that materials are made of, by atomic number. -/
def all : List Element :=
  [hydrogen, carbon, nitrogen, oxygen, sodium, magnesium, aluminium, silicon, chlorine, argon,
    potassium, calcium, iron, lead]

/-- The element with this symbol. -/
def ofSymbol? (symbol : String) : Option Element :=
  all.find? fun e => e.symbol == symbol

end Element

/-! ## Mixtures -/

/-- The sum of a list from the left. The empty sum is the negative zero, to which every number can
be added without changing it. -/
def sumFloats (values : List Float) : Float :=
  values.foldl (· + ·) (-0.0)

/-- A mixture of elements. -/
structure Material where
  /-- the name under which it is known -/
  name : String
  /-- the mass density in g/cm³ -/
  density : Float
  /-- the elements with their mass fractions -/
  components : List (Element × Float)

namespace Material

/-- The sum of the mass fractions. -/
def fractionSum (m : Material) : Float :=
  sumFloats (m.components.map (·.2))

/-- The radiation length in cm; infinite for a material without mass. -/
def radiationLength (m : Material) : Float :=
  let total := m.fractionSum
  if total <= 0.0 || m.density <= 0.0 then 1.0 / 0.0
  else
    let inverse := sumFloats (m.components.map fun (e, w) => w / total / e.radiationLength)
    1.0 / inverse / m.density

end Material

end Telescope
