import AccessBench.AddressSpace
import AccessBench.Error
import AccessBench.Pattern
import AccessBench.Size
import Std.Data.HashMap

/-!
Anonymous memory, touched one byte a unit. A fresh region holds zeros; writing stores a one, and
what is read is added up so that reading can be told.
-/

namespace AccessBench

def outOfRange (offset : Nat) : BenchError := .io "touch" offset (.described "unit outside region")

/-- Where a unit begins, held at the largest word. -/
def unitOffset (index : Nat) (unit : UInt64) : Nat := min (index * unit.toNat) (UInt64.size - 1)

/-- Private memory. Only bytes that have been written are stored. -/
structure MemoryRegion where
  size : UInt64
  unit : UInt64
  written : Std.HashMap Nat UInt8 := ∅
  /-- The sum of all bytes read. -/
  fold : UInt8 := 0

namespace MemoryRegion

/-- Maps fresh memory. A size of zero maps nothing and succeeds. -/
def map (space : AddressSpace) (size unit : UInt64) : Except BenchError MemoryRegion :=
  match space.mapFailure? size.toNat with
  | some failure => .error (.map size.toNat failure)
  | none => .ok { size := size, unit := unit }

def byteAt (r : MemoryRegion) (offset : Nat) : UInt8 := r.written.getD offset 0

/-- Reads or writes the first byte of a unit. One byte is moved. -/
def touch (index : Nat) (access : Access) (r : MemoryRegion) :
    Except BenchError UInt64 × MemoryRegion :=
  let offset := unitOffset index r.unit
  if offset < r.size.toNat then
    match access with
    | .write => (.ok 1, { r with written := r.written.insert offset 1 })
    | .read => (.ok 1, { r with fold := r.fold + r.byteAt offset })
  else (.error (outOfRange offset), r)

def units (r : MemoryRegion) : Except Halt Nat := unitCount r.size r.unit

end MemoryRegion

end AccessBench
