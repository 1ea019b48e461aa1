/-!
# Key stream blocks

Random numbers come from a stream cipher with twelve rounds: a block of sixteen words is computed
from a key of eight words and the number of the block, and the blocks in their order are the stream.

The words form a square. A round mixes its four columns or its four diagonals; the result is added
to the words that the rounds started from.
-/

namespace Telescope.Random

/-- The words of a block. -/
abbrev Block := Vector UInt32 16

/-- The key of a stream. -/
abbrev Key := Vector UInt32 8

/-- A word turned to the left by `n` bits, `0 < n < 32`. -/
def rotate (x : UInt32) (n : UInt32) : UInt32 :=
  (x <<< n) ||| (x >>> (32 - n))

/-- Adds word `b` to word `a`, and turns the sum with word `d` into word `d`. -/
def mix (a b d : Fin 16) (turn : UInt32) (s : Block) : Block :=
  let sum := s[a] + s[b]
  (s.set a sum).set d (rotate (s[d] ^^^ sum) turn)

/-- Mixes four words with each other. -/
def quarter (a b c d : Fin 16) (s : Block) : Block :=
  mix c d b 7 (mix a b d 8 (mix c d b 12 (mix a b d 16 s)))

/-- Mixes the columns, then the diagonals. -/
def doubleRound (s : Block) : Block :=
  let s := quarter 3 7 11 15 (quarter 2 6 10 14 (quarter 1 5 9 13 (quarter 0 4 8 12 s)))
  quarter 3 4 9 14 (quarter 2 7 8 13 (quarter 1 6 11 12 (quarter 0 5 10 15 s)))

/-- What the rounds start from: four fixed words, the key, the number of the block, and two zeros. -/
def start (key : Key) (number : UInt64) : Block :=
  #v[0x61707865, 0x3320646e, 0x79622d32, 0x6b206574,
    key[0], key[1], key[2], key[3], key[4], key[5], key[6], key[7],
    number.toUInt32, (number >>> 32).toUInt32, 0, 0]

/-- The number of double rounds. -/
def doubleRounds : Nat := 6

/-- The block with this number. -/
def block (key : Key) (number : UInt64) : Block :=
  let s := start key number
  Vector.zipWith (· + ·) s (Nat.repeat doubleRound doubleRounds s)

end Telescope.Random
