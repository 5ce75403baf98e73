import AccessBench.Halt

/-!
Byte sizes: the binary units, the compact labels written into titles and names, and the number
of units that an extent divides into.
-/

namespace AccessBench

def kib : Nat := 1024

def mib : Nat := 1024 * kib

def gib : Nat := 1024 * mib

/-- The units of labels, the largest first. -/
def labelUnits : List (Nat × String) := [(gib, "GB"), (mib, "MB"), (kib, "KB")]

/-- Labels `bytes` in the first of `units` that divides it and is not above it, and in plain
bytes when none is. -/
def labelIn (bytes : Nat) : List (Nat × String) → String
  | [] => toString bytes ++ "B"
  | (unit, suffix) :: rest =>
    if unit ≤ bytes ∧ bytes % unit = 0 then toString (bytes / unit) ++ suffix
    else labelIn bytes rest

/-- The compact label of a byte count: `512B`, `4KB`, `16MB`, `1GB`. It is exact, because a larger
unit is taken only when it divides the count. -/
def byteLabel (bytes : UInt64) : String := labelIn bytes.toNat labelUnits

/-- The least number of units of `unit` bytes that cover `size` bytes. -/
def unitsToCover (size unit : Nat) : Nat := (size + unit - 1) / unit

/-- The number of units of an extent, counting a partial one at the end. Without bytes in a unit
there is no such number. -/
def unitCount (size unit : UInt64) : Except Halt Nat :=
  if unit = 0 then .error .zeroUnit else .ok (unitsToCover size.toNat unit.toNat)

end AccessBench
