/-!
One block of the ChaCha stream cipher with twelve rounds: sixteen words scrambled by a key and the
number of the block.
-/

namespace AccessBench.Random

/-- The sixteen words that the rounds work on. -/
abbrev Words := Vector UInt32 16

/-- Rotates the bits of a word to the left, for amounts between 1 and 31. -/
def rotateLeft (x : UInt32) (amount : UInt32) : UInt32 := x <<< amount ||| x >>> (32 - amount)

/-- Adds word `b` to word `a`, then mixes the sum into word `d` and rotates that. -/
def mix (a b d : Fin 16) (amount : UInt32) (w : Words) : Words :=
  let sum := w[a] + w[b]
  let w := w.set a sum
  w.set d (rotateLeft (w[d] ^^^ sum) amount)

def quarterRound (a b c d : Fin 16) (w : Words) : Words :=
  mix c d b 7 (mix a b d 8 (mix c d b 12 (mix a b d 16 w)))

/-- A round over the columns of the four by four square, then one over its diagonals. -/
def doubleRound (w : Words) : Words :=
  let w := quarterRound 0 4 8 12 w
  let w := quarterRound 1 5 9 13 w
  let w := quarterRound 2 6 10 14 w
  let w := quarterRound 3 7 11 15 w
  let w := quarterRound 0 5 10 15 w
  let w := quarterRound 1 6 11 12 w
  let w := quarterRound 2 7 8 13 w
  quarterRound 3 4 9 14 w

/-- The words before the first round: four constants, the key, the number of the block as two
words, low one first, and two words that stay zero. -/
def start (key : Vector UInt32 8) (block : UInt64) : Words :=
  #v[0x61707865, 0x3320646e, 0x79622d32, 0x6b206574,
    key[0], key[1], key[2], key[3], key[4], key[5], key[6], key[7],
    block.toUInt32, (block >>> 32).toUInt32, 0, 0]

/-- The words of a block: six double rounds, then the start is added word by word. -/
def blockWords (key : Vector UInt32 8) (block : UInt64) : Words :=
  let first := start key block
  let last := (List.range 6).foldl (fun w _ => doubleRound w) first
  last.zipWith (· + ·) first

end AccessBench.Random
