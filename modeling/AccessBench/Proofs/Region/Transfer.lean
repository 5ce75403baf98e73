import AccessBench.Proofs.Region.Blocks
import AccessBench.Proofs.Store
import AccessBench.Region.File

/-!
Calls on an open file that is long enough: each one moves the whole block of its unit.
-/

namespace AccessBench

/-- So many bytes of a file, from an offset on. -/
structure ByteRange where
  offset : Nat
  length : Nat

def ByteRange.Holds (range : ByteRange) (byte : Nat) : Prop :=
  range.offset ≤ byte ∧ byte < range.offset + range.length

namespace Scenario

def block (s : Scenario) (index : Nat) : ByteRange where
  offset := index * s.unit.toNat
  length := blockLength s.size.toNat s.unit.toNat index

@[simp] theorem offset_block (s : Scenario) (index : Nat) :
    (s.block index).offset = index * s.unit.toNat := rfl

@[simp] theorem length_block (s : Scenario) (index : Nat) :
    (s.block index).length = blockLength s.size.toNat s.unit.toNat index := rfl

/-- The bytes that a call on a unit moves. -/
def moved (s : Scenario) (index : Nat) : UInt64 :=
  UInt64.ofNat (blockLength s.size.toNat s.unit.toNat index)

theorem toNat_moved (s : Scenario) (index : Nat) :
    (s.moved index).toNat = blockLength s.size.toNat s.unit.toNat index :=
  UInt64.toNat_ofNat_of_lt' (Nat.lt_of_le_of_lt (Nat.min_le_right _ _) s.unit.toNat_lt)

end Scenario

theorem unitOffset_of_lt {i : Nat} {size unit : UInt64} (h : i * unit.toNat < size.toNat) :
    unitOffset i unit = i * unit.toNat := by
  have hsize := size.toNat_lt
  exact Nat.min_eq_left (by rw [UInt64.size]; omega)

namespace FileRegion

/-- The region is one of the scenario, open for its access, over a file of a store that has all the
bytes of the region. -/
structure IsOf (s : Scenario) (node : Nat) (store : Store) (r : FileRegion) : Prop where
  size : r.size = s.size
  unit : r.unit = s.unit
  opened : r.opened = .file node
  writable : s.access = .write → r.writable = true
  stored : s.size.toNat ≤ (store.bytes node).size

variable {s : Scenario} {store : Store} {r : FileRegion} {i : Nat}

/-- A file that is long enough can be opened as soon as a buffer of a unit can be made. -/
theorem openAt_of_long {path : String} {place : Path} {node : Nat} {size : UInt64}
    (space : AddressSpace) (hfile : store.find path = .ok (place, .file node))
    (hlong : size.toNat ≤ (store.bytes node).size) (unit : UInt64) (writable : Bool) :
    openAt space store path size unit writable =
      match space.obtain unit.toNat with
      | .ok _ => .ok (fresh path (.file node) size unit writable)
      | .error reason => .error (.halted reason) := by
  have hopen : store.openExisting path writable = .ok (.file node) := by
    rw [Store.openExisting, hfile]
  have hshort : ¬ store.entrySize (.file node) < size.toNat := by
    rw [Store.entrySize]
    omega
  rw [openAt, hopen]
  dsimp only
  rw [if_neg hshort]
  cases space.obtain unit.toNat with
  | ok _ | error reason => rfl

theorem size_piece {bytes : ByteArray} (hlong : s.size.toNat ≤ bytes.size)
    (hi : i * s.unit.toNat < s.size.toNat) :
    (bytes.extract (i * s.unit.toNat) (i * s.unit.toNat +
      min (s.size.toNat - i * s.unit.toNat) s.unit.toNat)).size =
        blockLength s.size.toNat s.unit.toNat i := by
  rw [ByteArray.size_extract, blockLength]
  omega

/-- The region after it has read a range of a file to the front of its buffer. -/
def reading (node : Nat) (range : ByteRange) (store : Store) (r : FileRegion) : FileRegion :=
  { r with
    calls := r.calls + 1
    buffer := overwrite r.buffer 0
      ((store.bytes node).extract range.offset (range.offset + range.length)) }

/-- The store after a region has written the front of its buffer to a range of a file. -/
def writing (node : Nat) (range : ByteRange) (r : FileRegion) (store : Store) : Store :=
  store.setBytes node fun bytes => overwrite bytes range.offset (r.buffer.extract 0 range.length)

/-- One call moves a range of a file to the buffer or from it, and leaves all else as it is. -/
def Transfers (access : Access) (node : Nat) (range : ByteRange) (r : FileRegion) (store : Store)
    (r' : FileRegion) (store' : Store) : Prop :=
  match access with
  | .read => r' = reading node range store r ∧ store' = store
  | .write => r' = { r with calls := r.calls + 1 } ∧ store' = writing node range r store

section

variable {node : Nat} (hsize : r.size = s.size) (hunit : r.unit = s.unit)
  (hopened : r.opened = .file node) (hi : i * s.unit.toNat < s.size.toNat)

include hsize hunit hopened hi

theorem touch_read (hlong : s.size.toNat ≤ (store.bytes node).size) :
    r.touch i .read store = (.ok (s.moved i), reading node (s.block i) store r, store) := by
  have hpiece := size_piece hlong hi
  obtain ⟨path, opened, size, unit, writable, buffer, calls⟩ := r
  obtain rfl : opened = .file node := hopened
  obtain rfl : size = s.size := hsize
  obtain rfl : unit = s.unit := hunit
  simp only [FileRegion.touch, unitOffset_of_lt hi, if_pos hi, read, Store.readAt]
  rw [hpiece]
  rfl

theorem touch_write (hwritable : r.writable = true) :
    r.touch i .write store =
      (.ok (s.moved i), { r with calls := r.calls + 1 }, writing node (s.block i) r store) := by
  obtain ⟨path, opened, size, unit, writable, buffer, calls⟩ := r
  obtain rfl : opened = .file node := hopened
  obtain rfl : size = s.size := hsize
  obtain rfl : unit = s.unit := hunit
  obtain rfl : writable = true := hwritable
  simp only [FileRegion.touch, unitOffset_of_lt hi, if_pos hi, write, Store.writeAt, if_true]
  rfl

end

/-- A call on a unit transfers its block. -/
theorem IsOf.touch {node : Nat} (h : r.IsOf s node store) (hi : i * s.unit.toNat < s.size.toNat) :
    ∃ r' store', r.touch i s.access store = (.ok (s.moved i), r', store') ∧
      r'.IsOf s node store' ∧ r'.calls = r.calls + 1 ∧
      r.Transfers s.access node (s.block i) store r' store' := by
  obtain ⟨hsize, hunit, hopened, hwritable, hlong⟩ := h
  cases haccess : s.access with
  | read =>
    rw [touch_read hsize hunit hopened hi hlong]
    refine ⟨reading node (s.block i) store r, store, rfl, ?_, rfl, rfl, rfl⟩
    unfold reading
    exact ⟨hsize, hunit, hopened, hwritable, hlong⟩
  | write =>
    rw [touch_write hsize hunit hopened hi (hwritable haccess)]
    refine ⟨{ r with calls := r.calls + 1 }, writing node (s.block i) r store, rfl, ?_, rfl, rfl,
      rfl⟩
    refine ⟨hsize, hunit, hopened, hwritable, ?_⟩
    exact hlong.trans (store.size_bytes_le_overwrite node node _ _)

end FileRegion

end AccessBench
