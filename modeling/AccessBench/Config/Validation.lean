import AccessBench.Config
import AccessBench.Error

/-!
Which configurations can be measured. The first rule that a configuration breaks gives the error.
-/

namespace AccessBench

def isPowerOfTwo (n : UInt64) : Bool := n ≠ 0 && n &&& (n - 1) = 0

namespace Config

/-- The rules, each with its message, in the order in which they are tried. -/
def faults (c : Config) : List (Bool × String) := [
  (c.iterations = 0, "iterations must be >= 1"),
  (!isPowerOfTwo c.memory.pageSize,
    "page_size must be a power of two, got " ++ toString c.memory.pageSize),
  (c.memory.strides.contains 0, "memory stride must be >= 1 page, got 0"),
  (c.file.blockSize = 0, "block_size must be > 0"),
  (c.file.blockSizes.contains 0, "block_sizes must all be > 0"),
  (c.file.strides.contains 0, "file stride must be >= 1 block")]

/-- Refuses a configuration that would make a measurement meaningless. -/
def validate (c : Config) : Except BenchError Unit :=
  match c.faults.find? (·.1) with
  | some fault => .error (.config fault.2)
  | none => .ok ()

end Config

end AccessBench
