import AccessBench.Counter
import AccessBench.Duration
import AccessBench.Halt
import AccessBench.Scenario

/-!
Rows of a report: the mean of the trials of one scenario, with the rates computed from it.
-/

namespace AccessBench

structure Trial where
  duration : Duration
  /-- Page faults or bytes transferred. -/
  auxCount : UInt64 := 0
  visited : UInt64 := 0
  /-- The clock or the counter went backwards. -/
  clamped : Bool := false
  deriving DecidableEq

/-- The mean of the trials of one scenario. -/
structure Row where
  name : String
  sizeBytes : UInt64
  blockSize : UInt64
  metric : Metric
  duration : Duration
  auxCount : UInt64
  visited : UInt64
  /-- In units of `mib` bytes per second. -/
  throughput : Float
  /-- Microseconds per fault; zero for byte metrics. -/
  perUnit : Float
  trials : UInt64
  clamped : Bool
  failed : Bool

/-- The rate of so many bytes in units of `mib` bytes per second, zero when no time elapsed. -/
def throughputOf (bytes : UInt64) (duration : Duration) : Float :=
  let seconds := duration.toSeconds
  if seconds > 0.0 then bytes.toFloat / 1048576.0 / seconds else 0.0

/-- Microseconds per counted unit, zero when nothing was counted. -/
def perUnitOf (duration : Duration) (count : UInt64) : Float :=
  if count > 0 then duration.toSeconds * 1000000.0 / count.toFloat else 0.0

/-- The sum of two words, if it is a word. -/
def addWords? (a b : UInt64) : Option UInt64 :=
  if a.toNat + b.toNat < UInt64.size then some (a + b) else none

/-- The sum of words, if it is a word. -/
def wordSum? (words : List UInt64) : Option UInt64 := words.foldlM addWords? 0

/-- The integer part of the mean of so many counts, which halts when their sum is not a word. -/
def wordMean (count : Nat) (words : List UInt64) : Except Halt UInt64 :=
  match wordSum? words with
  | some total => .ok (UInt64.ofNat (total.toNat / count))
  | none => .error .countOverflow

/-- How many trials the total duration is divided by: their number, as far as it fits 32 bits. -/
def durationDivisor (trials : List Trial) : Nat := min trials.length (UInt32.size - 1)

/-- One `n`-th of the sum of the spans, which halts when the sum is too long. -/
def durationMean (n : Nat) (spans : List Duration) : Except Halt Duration :=
  match Duration.sum? spans with
  | some total => .ok (total.div n)
  | none => .error .durationOverflow

/-- The bytes that a rate is taken over: those of the region, or as many as were transferred. -/
def rateBasis (s : Scenario) (auxCount : UInt64) : Metric → UInt64
  | .pageFaults => s.size
  | .bytesTransferred => auxCount

namespace Row

/-- A row of given means. The rates follow from the metric. -/
def ofMeans (s : Scenario) (metric : Metric) (duration : Duration)
    (auxCount visited trials : UInt64) (clamped : Bool) : Row where
  name := s.name
  sizeBytes := s.size
  blockSize := s.unit
  metric := metric
  duration := duration
  auxCount := auxCount
  visited := visited
  throughput := throughputOf (rateBasis s auxCount metric) duration
  perUnit :=
    match metric with
    | .pageFaults => perUnitOf duration auxCount
    | .bytesTransferred => 0.0
  trials := trials
  clamped := clamped
  failed := false

/-- The mean of the trials; all its counts are zero without trials. A total that is not
representable is a halt. -/
def ofTrials (s : Scenario) (metric : Metric) (trials : List Trial) : Except Halt Row :=
  if trials.isEmpty then .ok (ofMeans s metric .zero 0 0 0 false)
  else do
    let count := trials.length
    let duration ← durationMean (durationDivisor trials) (trials.map (·.duration))
    let auxCount ← wordMean count (trials.map (·.auxCount))
    let visited ← wordMean count (trials.map (·.visited))
    return ofMeans s metric duration auxCount visited (UInt64.ofNat count)
      (trials.any (·.clamped))

def failure (s : Scenario) (metric : Metric) : Row :=
  { ofMeans s metric .zero 0 0 0 false with failed := true }

/-- The bytes that the row tells of. -/
def bytesMoved (r : Row) : UInt64 :=
  match r.metric with
  | .pageFaults => r.sizeBytes
  | .bytesTransferred => r.auxCount

end Row

end AccessBench
