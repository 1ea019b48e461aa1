import Telescope.Random.Block

/-!
# Random numbers

A generator is a place in a key stream; the key follows from a seed, so a seed determines all that
is drawn. Every draw takes two words of the stream.

* `Generator.ofSeed` stands at the start of the stream of a seed;
* `Generator.draw` is a 64-bit number;
* `Generator.uniform?` is a number between `-half` and `half`;
* `Generator.chance?` is true with a given probability.
-/

namespace Telescope

namespace Random

/-- The step of the seed's own small generator. -/
def seedStep (state : UInt64) : UInt64 :=
  state * 6364136223846793005 + 11634580027462260723

/-- The word that a state of the seed's generator shows. -/
def seedWord (state : UInt64) : UInt32 :=
  let word := (((state >>> 18) ^^^ state) >>> 27).toUInt32
  let turn := (state >>> 59).toUInt32
  if turn = 0 then word else rotate word (32 - turn)

/-- The state of the seed's generator after `n` steps. -/
def seedState (seed : UInt64) (n : Nat) : UInt64 :=
  Nat.repeat seedStep n seed

/-- The key that belongs to a seed. -/
def keyOfSeed (seed : UInt64) : Key :=
  Vector.ofFn fun i => seedWord (seedState seed (i.val + 1))

/-- The draws that a block holds: two words each, the low one first. -/
def drawsOf (b : Block) : List UInt64 :=
  (List.finRange 8).map fun i =>
    b[2 * i.val].toUInt64 ||| (b[2 * i.val + 1].toUInt64 <<< 32)

end Random

/-- A place in the stream of random numbers. -/
structure Generator where
  /-- the key of the stream -/
  key : Random.Key
  /-- the number of the next block -/
  next : UInt64
  /-- the draws left of the last block -/
  pending : List UInt64

namespace Generator

/-- The start of the stream of a seed. -/
def ofSeed (seed : UInt64) : Generator := ⟨Random.keyOfSeed seed, 0, []⟩

instance : Inhabited Generator := ⟨ofSeed 0⟩

/-- The next draw. -/
def draw (g : Generator) : UInt64 × Generator :=
  match g.pending with
  | x :: rest => (x, { g with pending := rest })
  | [] =>
    let draws := Random.drawsOf (Random.block g.key g.next)
    (draws.headD 0, { g with next := g.next + 1, pending := draws.tail })

/-- The number of draws after which the stream repeats: eight for every block. -/
def period : Nat := 8 * UInt64.size

/-- The number in `[0, 1)` whose 52 binary places are the upper bits of a draw. -/
def fraction (x : UInt64) : Float :=
  Float.ofBits ((0x3FF0000000000000 : UInt64) ||| (x >>> 12)) - 1.0

/-- The first of the next draws that is below `half` when spread over `[-half, half]`. Rounding can
push the spread number up to `half` itself; then the next draw counts. -/
def below? (half : Float) : Nat → Generator → Option (Float × Generator)
  | 0, _ => none
  | tries + 1, g =>
    let (x, g) := g.draw
    let low := -half
    let value := fraction x * (half - low) + low
    if value < half then some (value, g) else below? half tries g

/-- A number in `[-half, half)`; `none` if the width of that interval is not finite. -/
def uniform? (half : Float) (g : Generator) : Option (Float × Generator) :=
  if (half - -half).isFinite then below? half period g else none

/-- True with the given probability, and `none` if that is not between zero and one. Only certainty
needs no draw. -/
def chance? (probability : Float) (g : Generator) : Option (Bool × Generator) :=
  if probability == 1.0 then some (true, g)
  else if 0.0 <= probability && probability < 1.0 then
    let (x, g) := g.draw
    some (decide (x < (probability * 18446744073709551616.0).toUInt64), g)
  else none

end Generator

end Telescope
