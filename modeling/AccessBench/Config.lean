import AccessBench.Duration
import AccessBench.Size

/-!
The configuration of a run: the sizes, strides and block sizes that its scenarios are built from,
how often each is run, and the seed. Every field has a default.
-/

namespace AccessBench

/-- What a fresh fixture is filled with. -/
inductive FillMode
  /-- The bytes 0 to 255 over and over. -/
  | pattern
  | random
  deriving DecidableEq, Repr, Inhabited

namespace FillMode

def key : FillMode → String
  | pattern => "pattern"
  | random => "random"

def ofKey? (key : String) : Option FillMode :=
  if key = "pattern" then some pattern
  else if key = "random" then some random
  else none

end FillMode

def defaultSeed : UInt64 := 0xDEADBEEF

def defaultFixturePath : String := "/tmp/readahead_test_file"

structure MemoryConfig where
  /-- Region sizes in bytes of the sequential sections. -/
  sizes : List UInt64 := [4 * 1024 * 1024, 64 * 1024 * 1024, 256 * 1024 * 1024, 1024 * 1024 * 1024]
  /-- Strides in pages. -/
  strides : List UInt64 := [1, 2, 4, 8, 16, 32]
  /-- Region size in bytes of the other sections. -/
  patternSize : UInt64 := 256 * 1024 * 1024
  pageSize : UInt64 := 4096
  deriving DecidableEq, Repr, Inhabited

structure FileConfig where
  path : String := defaultFixturePath
  /-- Size in bytes of a fresh fixture. -/
  fileSize : UInt64 := 16 * 1024 * 1024
  /-- Block size in bytes of the pattern and stride sections. -/
  blockSize : UInt64 := 4096
  /-- Strides in blocks. -/
  strides : List UInt64 := [1, 2, 4, 16, 64]
  /-- Block sizes in bytes of the block size section. -/
  blockSizes : List UInt64 := [512, 1024, 4096, 16384, 65536, 262144]
  fill : FillMode := .pattern
  /-- Pause in milliseconds after every cache drop. -/
  settleDelayMs : UInt64 := 100
  deriving DecidableEq, Repr, Inhabited

structure Config where
  /-- Trials averaged into every row. -/
  iterations : UInt64 := 3
  randomSeed : UInt64 := defaultSeed
  memory : MemoryConfig := {}
  file : FileConfig := {}
  deriving DecidableEq, Repr, Inhabited

def FileConfig.settleDelay (c : FileConfig) : Duration := .ofMillis c.settleDelayMs

end AccessBench
