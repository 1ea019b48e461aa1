import Telescope.Vector

/-!
# Placed volumes

The detector is made of boxes that stand along the axes. Every box that is placed gets a number, by
which steps refer to it.
-/

namespace Telescope

/-- The number of a placed volume. -/
structure VolumeId where
  /-- the number itself -/
  number : UInt32
deriving DecidableEq, Repr, Inhabited

/-- A box at its place. -/
structure Volume where
  /-- its number -/
  id : VolumeId
  /-- its name -/
  name : String
  /-- the name of what it is made of -/
  material : String
  /-- its centre, in mm -/
  center : Vector3
  /-- half its edges, in mm -/
  halfExtent : Vector3

namespace Volume

/-- Whether a point lies in the box; its faces belong to it. -/
def contains (v : Volume) (point : Vector3) : Bool :=
  let d := point - v.center
  d.x.abs <= v.halfExtent.x && d.y.abs <= v.halfExtent.y && d.z.abs <= v.halfExtent.z

end Volume

end Telescope
