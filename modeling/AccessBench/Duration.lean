/-!
Spans of time as whole seconds and the nanoseconds below one second, with the exact arithmetic
that averaging needs.
-/

namespace AccessBench

def nanosPerSecond : Nat := 1000000000

/-- A span of time, in whole seconds and the nanoseconds below one second. -/
@[ext] structure Duration where
  seconds : UInt64
  nanos : Nat
  nanos_lt : nanos < nanosPerSecond := by decide
  deriving DecidableEq

namespace Duration

def zero : Duration where
  seconds := 0
  nanos := 0

instance : Inhabited Duration := ⟨zero⟩

def toNanos (d : Duration) : Nat := d.seconds.toNat * nanosPerSecond + d.nanos

/-- The span of so many seconds and nanoseconds, the nanoseconds carried over into seconds. There
is none when the seconds do not fit their word. -/
def carry? (seconds nanos : Nat) : Option Duration :=
  let total := seconds + nanos / nanosPerSecond
  if total < UInt64.size then
    some ⟨UInt64.ofNat total, nanos % nanosPerSecond, Nat.mod_lt _ (by decide)⟩
  else none

def add? (a b : Duration) : Option Duration :=
  carry? (a.seconds.toNat + b.seconds.toNat) (a.nanos + b.nanos)

def sum? (ds : List Duration) : Option Duration := ds.foldlM add? zero

def sub? (a b : Duration) : Option Duration :=
  if b.nanos ≤ a.nanos then
    if b.seconds ≤ a.seconds then
      some ⟨a.seconds - b.seconds, a.nanos - b.nanos, Nat.lt_of_le_of_lt (Nat.sub_le ..) a.nanos_lt⟩
    else none
  else if b.seconds < a.seconds then
    carry? (a.seconds.toNat - 1 - b.seconds.toNat) (nanosPerSecond + a.nanos - b.nanos)
  else none

/-- One `n`-th of the span, rounded down to whole nanoseconds. What the division of the seconds
leaves is divided together with the nanoseconds. -/
def div (d : Duration) (n : Nat) : Duration where
  seconds := UInt64.ofNat (d.seconds.toNat / n)
  nanos := (d.seconds.toNat % n * nanosPerSecond + d.nanos) / n
  nanos_lt := by
    rcases Nat.eq_zero_or_pos n with rfl | hn
    · simp [nanosPerSecond]
    · have hr : d.seconds.toNat % n < n := Nat.mod_lt _ hn
      have hd := d.nanos_lt
      apply Nat.div_lt_of_lt_mul
      have hm : (d.seconds.toNat % n + 1) * nanosPerSecond ≤ n * nanosPerSecond :=
        Nat.mul_le_mul_right _ hr
      rw [Nat.add_mul] at hm
      omega

def toMicros (d : Duration) : Nat := d.seconds.toNat * 1000000 + d.nanos / 1000

def ofMicros (n : UInt64) : Duration where
  seconds := n / 1000000
  nanos := n.toNat % 1000000 * 1000
  nanos_lt := by
    have h : n.toNat % 1000000 < 1000000 := Nat.mod_lt _ (by decide)
    unfold nanosPerSecond
    omega

def ofMillis (n : UInt64) : Duration where
  seconds := n / 1000
  nanos := n.toNat % 1000 * 1000000
  nanos_lt := by
    have h : n.toNat % 1000 < 1000 := Nat.mod_lt _ (by decide)
    unfold nanosPerSecond
    omega

/-- The span in seconds, rounded once for the seconds, once for the fraction and once for
their sum. -/
def toSeconds (d : Duration) : Float :=
  d.seconds.toFloat + d.nanos.toUInt64.toFloat / 1000000000.0

end Duration

structure Elapsed where
  duration : Duration
  /-- The second reading was before the first one. -/
  clamped : Bool
  deriving DecidableEq

/-- The time from `start` to `stop`, zero and flagged when the clock went backwards. -/
def elapsed (start stop : Duration) : Elapsed :=
  match stop.sub? start with
  | some duration => ⟨duration, false⟩
  | none => ⟨.zero, true⟩

end AccessBench
