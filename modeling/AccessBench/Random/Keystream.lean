import AccessBench.Random.Block

/-!
The endless sequence of words that a seed stands for, and a reader of it. The words of block `k` are
those numbered `16 k` to `16 k + 15`.
-/

namespace AccessBench.Random

/-- One step of the sequence that a seed is expanded with. -/
def nextSeedState (state : UInt64) : UInt64 :=
  state * 6364136223846793005 + 11634580027462260723

/-- The word that a state of the seed expansion gives: its high bits folded, then rotated by the
topmost five. -/
def seedWord (state : UInt64) : UInt32 :=
  let folded := (((state >>> 18) ^^^ state) >>> 27).toUInt32
  let turn := (state >>> 59).toUInt32
  folded >>> turn ||| folded <<< ((32 - turn) % 32)

def expandSeed (state : UInt64) : Nat → List UInt32
  | 0 => []
  | n + 1 => seedWord (nextSeedState state) :: expandSeed (nextSeedState state) n

theorem length_expandSeed (state : UInt64) (n : Nat) : (expandSeed state n).length = n := by
  induction n generalizing state with
  | zero => rfl
  | succ n ih => simp [expandSeed, ih]

def keyOfSeed (seed : UInt64) : Vector UInt32 8 :=
  ⟨(expandSeed seed 8).toArray, by simp [length_expandSeed]⟩

/-- Word `n` of the sequence under a key. -/
def keystreamWord (key : Vector UInt32 8) (n : Nat) : UInt32 :=
  (blockWords key (UInt64.ofNat (n / 16))).get ⟨n % 16, Nat.mod_lt _ (by decide)⟩

/-- A reader of the sequence: the words left of the current block, and the number of the block
after it. -/
structure Keystream where
  key : Vector UInt32 8
  block : UInt64 := 0
  pending : List UInt32 := []

namespace Keystream

def ofSeed (seed : UInt64) : Keystream where
  key := keyOfSeed seed

/-- Takes the next word, from a new block when the current one is used up. -/
def nextWord (stream : Keystream) : UInt32 × Keystream :=
  match stream.pending with
  | word :: rest => (word, { stream with pending := rest })
  | [] =>
    let words := blockWords stream.key stream.block
    (words[0], { stream with block := stream.block + 1, pending := words.toList.tail })

def nextLong (stream : Keystream) : UInt64 × Keystream :=
  let (low, stream) := stream.nextWord
  let (high, stream) := stream.nextWord
  (low.toUInt64 ||| high.toUInt64 <<< 32, stream)

end Keystream

/-- The four bytes of a word, the lowest first. -/
def wordBytes (word : UInt32) : List UInt8 :=
  [word.toUInt8, (word >>> 8).toUInt8, (word >>> 16).toUInt8, (word >>> 24).toUInt8]

/-- Appends the next `n` bytes of the sequence to `acc`. What is not used of a last word is lost. -/
def Keystream.fill (acc : ByteArray) (n : Nat) (stream : Keystream) : ByteArray × Keystream :=
  if n < 4 then
    if n = 0 then (acc, stream)
    else
      let (word, stream) := stream.nextWord
      ((wordBytes word).take n |>.foldl ByteArray.push acc, stream)
  else
    let (word, stream) := stream.nextWord
    stream.fill ((wordBytes word).foldl ByteArray.push acc) (n - 4)
  termination_by n

end AccessBench.Random
