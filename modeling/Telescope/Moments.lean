/-!
# Moments of a stream of numbers

Number of values, their sum and the sum of their squares are enough for the mean and the root mean
square, and can be merged: the moments of two streams add up to those of both.
-/

namespace Telescope

/-- The moments of the values seen so far. -/
structure Moments where
  /-- the number of values, as a 64-bit counter -/
  count : UInt64
  /-- the sum of the values -/
  sum : Float
  /-- the sum of their squares -/
  squares : Float

namespace Moments

/-- No value seen. -/
def empty : Moments := ⟨0, 0.0, 0.0⟩

instance : Inhabited Moments := ⟨empty⟩

/-- One more value. -/
def push (s : Moments) (value : Float) : Moments :=
  ⟨s.count + 1, s.sum + value, s.squares + value * value⟩

/-- The values of two streams. -/
def merge (s t : Moments) : Moments :=
  ⟨s.count + t.count, s.sum + t.sum, s.squares + t.squares⟩

/-- Merging adds the numbers of values. -/
@[simp] theorem count_merge (s t : Moments) : (s.merge t).count = s.count + t.count := rfl

/-- The mean, zero for an empty stream. -/
def mean (s : Moments) : Float :=
  if s.count = 0 then 0.0 else s.sum / s.count.toFloat

/-- The root mean square about zero, zero for an empty stream. -/
def rms (s : Moments) : Float :=
  if s.count = 0 then 0.0 else (s.squares / s.count.toFloat).sqrt

end Moments

end Telescope
