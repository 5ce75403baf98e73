import AccessBench.Action
import AccessBench.Region.Memory
import AccessBench.Store.File

/-!
A file that is open for reading or writing block by block. All blocks go through one buffer: a block
that is read replaces the front of the buffer, and a block that is written is the front of it.
-/

namespace AccessBench

/-- The first `size` bytes of an open file. -/
structure FileRegion where
  path : String
  opened : Entry
  size : UInt64
  unit : UInt64
  writable : Bool
  /-- The buffer, as far as a block of the region can reach. -/
  buffer : ByteArray
  /-- Reads and writes issued so far, fewer than `2 ^ 64`. -/
  calls : Nat := 0

def freshBuffer (length : Nat) : ByteArray := ⟨Array.replicate length 0xA5⟩

namespace FileRegion

def fresh (path : String) (opened : Entry) (size unit : UInt64) (writable : Bool) : FileRegion where
  path := path
  opened := opened
  size := size
  unit := unit
  writable := writable
  buffer := freshBuffer (min size.toNat unit.toNat)

/-- Opens a file that has at least `size` bytes. Room for a buffer of a whole unit is taken, and
without it the program halts. -/
def openAt (space : AddressSpace) (s : Store) (path : String) (size unit : UInt64)
    (writable : Bool) : Except Stop FileRegion :=
  match s.openExisting path writable with
  | .error failure => .error (.failed (.fixtureOpen path failure))
  | .ok opened =>
    let length := s.entrySize opened
    if length < size.toNat then .error (.failed (.fixtureTooSmall path length size.toNat))
    else
      let made := (space.obtain unit.toNat).map fun _ => fresh path opened size unit writable
      made.mapError .halted

def units (r : FileRegion) : Except Halt Nat := unitCount r.size r.unit

/-- Reads a block into the buffer. The bytes moved may be fewer than asked for. -/
def read (offset length : Nat) (r : FileRegion) (s : Store) :
    Except BenchError UInt64 × FileRegion :=
  match s.readAt r.opened offset length with
  | .error failure => (.error (.io "pread" offset failure), r)
  | .ok piece => (.ok (UInt64.ofNat piece.size), { r with buffer := overwrite r.buffer 0 piece })

/-- Writes the front of the buffer as a block. -/
def write (offset length : Nat) (r : FileRegion) (s : Store) : Except BenchError UInt64 × Store :=
  if r.writable then
    match s.writeAt r.opened offset (r.buffer.extract 0 length) with
    | .error failure => (.error (.io "pwrite" offset failure), s)
    | .ok s => (.ok (UInt64.ofNat length), s)
  else (.error (.io "pwrite" offset (.reason Reason.badDescriptor)), s)

/-- Reads or writes the block of a unit, the last one only as far as the region goes. A call is
counted before it is made. -/
def touch (index : Nat) (access : Access) (r : FileRegion) (s : Store) :
    Except BenchError UInt64 × FileRegion × Store :=
  let offset := unitOffset index r.unit
  if offset < r.size.toNat then
    let length := min (r.size.toNat - offset) r.unit.toNat
    let r := { r with calls := r.calls + 1 }
    match access with
    | .read =>
      let (moved, r) := r.read offset length s
      (moved, r, s)
    | .write =>
      let (moved, s) := r.write offset length s
      (moved, r, s)
  else (.error (outOfRange offset), r, s)

end FileRegion

end AccessBench
