import AccessBench.Config
import AccessBench.Toml.Text

/-!
Writing a configuration as a file: a line for every field, the memory and the file part as tables.
-/

namespace AccessBench

namespace Toml

/-- Files hold integers below `2 ^ 63`. -/
def integerText? (n : UInt64) : Option String :=
  if n < 0x8000000000000000 then some (toString n) else none

def arrayText? (ns : List UInt64) : Option String :=
  (ns.mapM integerText?).map fun texts => "[" ++ ", ".intercalate texts ++ "]"

def quotedText (text : String) : String := String.ofList (quote text.toList)

def keyLine (key value : String) : String := key ++ " = " ++ value ++ "\n"

end Toml

open Toml

def MemoryConfig.toToml? (c : MemoryConfig) : Option String := do
  let sizes ← arrayText? c.sizes
  let strides ← arrayText? c.strides
  let patternSize ← integerText? c.patternSize
  let pageSize ← integerText? c.pageSize
  return String.join [
    "[memory]\n",
    keyLine "sizes" sizes,
    keyLine "strides" strides,
    keyLine "pattern_size" patternSize,
    keyLine "page_size" pageSize]

def FileConfig.toToml? (c : FileConfig) : Option String := do
  let fileSize ← integerText? c.fileSize
  let blockSize ← integerText? c.blockSize
  let strides ← arrayText? c.strides
  let blockSizes ← arrayText? c.blockSizes
  let settleDelay ← integerText? c.settleDelayMs
  return String.join [
    "[file]\n",
    keyLine "path" (quotedText c.path),
    keyLine "file_size" fileSize,
    keyLine "block_size" blockSize,
    keyLine "strides" strides,
    keyLine "block_sizes" blockSizes,
    keyLine "fill" (quotedText c.fill.key),
    keyLine "settle_delay_ms" settleDelay]

/-- The file of a configuration; there is none when an integer is too large. -/
def Config.toToml? (c : Config) : Option String := do
  let iterations ← integerText? c.iterations
  let randomSeed ← integerText? c.randomSeed
  let memory ← c.memory.toToml?
  let file ← c.file.toToml?
  return String.join [
    keyLine "iterations" iterations,
    keyLine "random_seed" randomSeed,
    "\n", memory,
    "\n", file]

end AccessBench
