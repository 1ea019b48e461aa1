import Telescope.Decimal.Style

/-!
# Vectors and angles

Positions are in millimetres and momenta in MeV. The operations work on the components one by one,
in the order x, y, z; sums of three products are taken from the left, so that every result is
determined to the last bit.

* `Vector3.direction?` is the unit vector along a track segment, if the segment has a length;
* `spaceAngle` and `projectedAngle` compare two directions.
-/

namespace Telescope

/-- A vector in space. -/
structure Vector3 where
  /-- the horizontal component -/
  x : Float
  /-- the vertical component -/
  y : Float
  /-- the component along the beam -/
  z : Float

namespace Vector3

/-- The zero vector. -/
def zero : Vector3 := ⟨0.0, 0.0, 0.0⟩

/-- The unit vector along the beam. -/
def beamAxis : Vector3 := ⟨0.0, 0.0, 1.0⟩

instance : Inhabited Vector3 := ⟨zero⟩

instance : Add Vector3 := ⟨fun a b => ⟨a.x + b.x, a.y + b.y, a.z + b.z⟩⟩

instance : Sub Vector3 := ⟨fun a b => ⟨a.x - b.x, a.y - b.y, a.z - b.z⟩⟩

/-- Every component multiplied by a number. -/
def scale (v : Vector3) (s : Float) : Vector3 := ⟨v.x * s, v.y * s, v.z * s⟩

/-- Every component divided by a number. -/
def divide (v : Vector3) (s : Float) : Vector3 := ⟨v.x / s, v.y / s, v.z / s⟩

/-- The scalar product. -/
def dot (a b : Vector3) : Float := a.x * b.x + a.y * b.y + a.z * b.z

/-- The length, as the root of the sum of squares. The squares may overflow or vanish although the
length itself would not. -/
def norm (v : Vector3) : Float := (0.0 + v.dot v).sqrt

/-- The vector divided by its length, whatever that is. -/
def normalize (v : Vector3) : Vector3 := v.divide v.norm

/-- The unit vector along a segment; `none` if its length is zero or not finite. -/
def direction? (segment : Vector3) : Option Vector3 :=
  if !segment.norm.isFinite || segment.norm == 0.0 then none else some segment.normalize

/-- A direction is the segment at length one. -/
theorem direction?_eq_some {segment d : Vector3} (h : segment.direction? = some d) :
    d = segment.normalize := by
  unfold direction? at h
  split at h
  · exact nomatch h
  · exact (Option.some.inj h).symm

/-- The components between brackets, in inspection form. -/
def inspect (v : Vector3) : String :=
  let text := NumberStyle.inspection.write
  "[" ++ text v.x ++ ", " ++ text v.y ++ ", " ++ text v.z ++ "]"

end Vector3

/-- A number held between two bounds; NaN stays NaN. -/
def clamp (x lower upper : Float) : Float :=
  if x < lower then lower else if upper < x then upper else x

/-- The angle between two unit vectors, in radians. Rounding can push their product past 1; it is
held in the domain of the arc cosine, so that such vectors enclose exactly zero or a half turn. -/
def spaceAngle (incoming outgoing : Vector3) : Float :=
  (clamp (incoming.dot outgoing) (-1.0) 1.0).acos

/-- The signed change of direction in one transverse plane, against the beam axis. -/
def projectedAngle (incomingT incomingZ outgoingT outgoingZ : Float) : Float :=
  outgoingT.atan2 outgoingZ - incomingT.atan2 incomingZ

end Telescope
