import AccessBench.Decimal.Float
import AccessBench.Decimal.Notation
import AccessBench.Json.Record
import AccessBench.Row

/-!
Rows in documents: the fields in their order, the duration in whole microseconds.
-/

namespace AccessBench

namespace Json

/-- A number, or null for one that is not finite. -/
def float (x : Float) : Json :=
  match Decimal.numeral? x with
  | some n => .number n
  | none => .null

def float? : Json → Option Float
  | .number n => n.float?
  | _ => none

end Json

/-- A metric is written as its key, or as an object with the key as its only member. -/
def Metric.ofJson? : Json → Option Metric
  | .string (some key) => Metric.ofKey? key
  | .object [(some key, .null)] => Metric.ofKey? key
  | _ => none

/-- The microseconds of a span, held at the largest word. -/
def Duration.toMicrosWord (d : Duration) : Nat := min d.toMicros (UInt64.size - 1)

namespace Row

def fieldNames : List String :=
  ["name", "size_bytes", "block_size", "metric", "time_us", "aux_count", "visited",
    "throughput_mib_s", "per_unit_us", "trials", "clamped", "failed"]

def toJson (r : Row) : Json :=
  .ofMembers [
    ("name", .text r.name),
    ("size_bytes", .nat r.sizeBytes.toNat),
    ("block_size", .nat r.blockSize.toNat),
    ("metric", .text r.metric.key),
    ("time_us", .nat r.duration.toMicrosWord),
    ("aux_count", .nat r.auxCount.toNat),
    ("visited", .nat r.visited.toNat),
    ("throughput_mib_s", .float r.throughput),
    ("per_unit_us", .float r.perUnit),
    ("trials", .nat r.trials.toNat),
    ("clamped", .bool r.clamped),
    ("failed", .bool r.failed)]

def ofJson? (json : Json) : Option Row :=
  match Json.fields? fieldNames json with
  | some [name, sizeBytes, blockSize, metric, time, auxCount, visited, throughput, perUnit, trials,
      clamped, failed] => do
    return {
      name := ← Json.required? Json.text? name
      sizeBytes := ← Json.required? Json.word? sizeBytes
      blockSize := ← Json.required? Json.word? blockSize
      metric := ← Json.required? Metric.ofJson? metric
      duration := Duration.ofMicros (← Json.required? Json.word? time)
      auxCount := ← Json.required? Json.word? auxCount
      visited := ← Json.required? Json.word? visited
      throughput := ← Json.required? Json.float? throughput
      perUnit := ← Json.required? Json.float? perUnit
      trials := ← Json.required? Json.word? trials
      clamped := ← Json.required? Json.bool? clamped
      failed := ← Json.required? Json.bool? failed }
  | _ => none

end Row

end AccessBench
