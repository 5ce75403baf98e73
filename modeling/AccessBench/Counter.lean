/-!
Cumulative counters and the difference of two of their samples.
-/

namespace AccessBench

/-- What the value of a counter means. -/
inductive Metric
  /-- Minor and major page faults of the process. -/
  | pageFaults
  /-- Bytes moved by read and write calls. -/
  | bytesTransferred
  deriving DecidableEq, Repr, Inhabited

namespace Metric

def label : Metric → String
  | pageFaults => "page_faults"
  | bytesTransferred => "bytes"

def key : Metric → String
  | pageFaults => "page_faults"
  | bytesTransferred => "bytes_transferred"

def ofKey? (key : String) : Option Metric :=
  if key = "page_faults" then some pageFaults
  else if key = "bytes_transferred" then some bytesTransferred
  else none

end Metric

structure Delta where
  value : UInt64
  /-- The second sample was below the first one. -/
  clamped : Bool
  deriving DecidableEq

/-- What a counter rose by between two samples, zero and flagged when it fell. -/
def delta (before after : UInt64) : Delta :=
  if before ≤ after then ⟨after - before, false⟩ else ⟨0, true⟩

def saturatingAdd (a b : UInt64) : UInt64 :=
  UInt64.ofNat (min (a.toNat + b.toNat) (UInt64.size - 1))

/-- Bytes moved by the calls of a workload, fed call by call. There are fewer than `2 ^ 64` calls. -/
structure TransferCounter where
  total : UInt64 := 0
  calls : Nat := 0
  deriving DecidableEq, Inhabited

/-- Accounts for one call that moved `bytes`. The total is held at its maximum, so that it
never falls. -/
def TransferCounter.record (bytes : UInt64) (c : TransferCounter) : TransferCounter :=
  ⟨saturatingAdd c.total bytes, c.calls + 1⟩

end AccessBench
