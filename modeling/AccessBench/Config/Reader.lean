import AccessBench.Config
import AccessBench.Toml.Reader

/-!
Reading a configuration from a file. Keys that are missing keep their defaults, and keys that are
not known do nothing.
-/

namespace AccessBench

open Toml (Value)

namespace Toml

def Value.word? : Value → Option UInt64
  | .integer n => if 0 ≤ n then some (UInt64.ofNat n.toNat) else none
  | _ => none

def Value.text? : Value → Option String
  | .string text => some text
  | _ => none

def Value.words? : Value → Option (List UInt64)
  | .array items => items.mapM Value.word?
  | _ => none

/-- A fill mode, as a text or as a table with the mode as its only key and an empty table or array
under it. -/
def Value.fill? : Value → Option FillMode
  | .string key => FillMode.ofKey? key
  | .table _ [(key, .table _ [])] | .table _ [(key, .array [])] => FillMode.ofKey? key
  | _ => none

/-- The values of the named fields of a record. A record is a table, or an array with the fields in
their order, of which the last ones may be missing and what is left over is passed over. -/
def Value.fields? (names : List String) : Value → Option (List (Option Value))
  | .table _ entries => some (names.map fun name => entries.lookup name)
  | .array items =>
    some ((items.take names.length).map some ++ List.replicate (names.length - items.length) none)
  | .tables items =>
    some ((items.take names.length).map (fun entries => some (.table .header entries)) ++
      List.replicate (names.length - items.length) none)
  | .moment => some (names.map fun _ => none)
  | _ => none

end Toml

/-- The value of a field, or its default when it is not there. -/
def fieldOr {α : Type} (default : α) (decode : Value → Option α) (field : Option Value) :
    Option α :=
  match field with
  | none => some default
  | some value => decode value

def MemoryConfig.ofValue? (value : Value) : Option MemoryConfig :=
  let default : MemoryConfig := {}
  match value.fields? ["sizes", "strides", "pattern_size", "page_size"] with
  | some [sizes, strides, patternSize, pageSize] => do
    return {
      sizes := ← fieldOr default.sizes Value.words? sizes
      strides := ← fieldOr default.strides Value.words? strides
      patternSize := ← fieldOr default.patternSize Value.word? patternSize
      pageSize := ← fieldOr default.pageSize Value.word? pageSize }
  | _ => none

def FileConfig.ofValue? (value : Value) : Option FileConfig :=
  let default : FileConfig := {}
  match value.fields?
    ["path", "file_size", "block_size", "strides", "block_sizes", "fill", "settle_delay_ms"] with
  | some [path, fileSize, blockSize, strides, blockSizes, fill, settleDelay] => do
    return {
      path := ← fieldOr default.path Value.text? path
      fileSize := ← fieldOr default.fileSize Value.word? fileSize
      blockSize := ← fieldOr default.blockSize Value.word? blockSize
      strides := ← fieldOr default.strides Value.words? strides
      blockSizes := ← fieldOr default.blockSizes Value.words? blockSizes
      fill := ← fieldOr default.fill Value.fill? fill
      settleDelayMs := ← fieldOr default.settleDelayMs Value.word? settleDelay }
  | _ => none

namespace Config

def ofValue? (value : Value) : Option Config :=
  let default : Config := {}
  match value.fields? ["iterations", "random_seed", "memory", "file"] with
  | some [iterations, randomSeed, memory, file] => do
    return {
      iterations := ← fieldOr default.iterations Value.word? iterations
      randomSeed := ← fieldOr default.randomSeed Value.word? randomSeed
      memory := ← fieldOr default.memory MemoryConfig.ofValue? memory
      file := ← fieldOr default.file FileConfig.ofValue? file }
  | _ => none

def ofToml? (text : String) : Option Config :=
  (Toml.ofText? text).bind fun entries => ofValue? (.table .header entries)

end Config

end AccessBench
