import AccessBench.Config
import AccessBench.Random.Keystream

/-!
The contents of fresh fixtures, made chunk by chunk.
-/

namespace AccessBench

def chunkSize : Nat := 4096

/-- A chunk of the pattern: each byte is its own number, over and over. -/
def patternChunk : ByteArray := ⟨(Array.range chunkSize).map UInt8.ofNat⟩

/-- What has been made so far, and where the random bytes go on. -/
abbrev Filling := ByteArray × Random.Keystream

def appendChunk (mode : FillMode) (length : Nat) (f : Filling) : Filling :=
  match mode with
  | .pattern => (f.1 ++ patternChunk.extract 0 length, f.2)
  | .random => f.2.fill f.1 length

def appendChunks (mode : FillMode) : Nat → Filling → Filling
  | 0, f => f
  | n + 1, f => appendChunks mode n (appendChunk mode chunkSize f)

/-- The contents of a fixture of a size: whole chunks, and a shorter one for the rest. -/
def fixtureContent (mode : FillMode) (seed : UInt64) (size : Nat) : ByteArray :=
  let full := appendChunks mode (size / chunkSize) (ByteArray.empty, Random.Keystream.ofSeed seed)
  (appendChunk mode (size % chunkSize) full).1

end AccessBench
