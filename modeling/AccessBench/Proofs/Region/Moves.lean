import AccessBench.Proofs.Region.Transfer

/-!
What each request of a region over a file moves between its buffer and the file: a block that is
read goes to the front of the buffer, and the front of the buffer goes to a block that is written.
-/

namespace AccessBench

/-- What can be asked of a region that has been acquired. -/
inductive Request
  | touch (index : Nat) (access : Access)
  | rewind
  deriving DecidableEq

namespace Request

/-- Whether the unit that is asked for begins inside the region. -/
def inside (s : Scenario) : Request → Bool
  | touch index _ => index * s.unit.toNat < s.size.toNat
  | rewind => false

/-- The offset in the file of the byte that the request brings to a place of the buffer. -/
def source (s : Scenario) (place : Nat) : Request → Option Nat
  | touch index .read =>
    if place < blockLength s.size.toNat s.unit.toNat index then some (index * s.unit.toNat + place)
    else none
  | _ => none

/-- The place in the buffer of the byte that the request brings to an offset of the file. -/
def target (s : Scenario) (offset : Nat) : Request → Option Nat
  | touch index .write =>
    if index * s.unit.toNat ≤ offset ∧
        offset < index * s.unit.toNat + blockLength s.size.toNat s.unit.toNat index then
      some (offset - index * s.unit.toNat)
    else none
  | _ => none

end Request

namespace Request

variable {s : Scenario} {q : Request} {i place offset : Nat}

theorem source_of_not_inside (h : q.inside s = false) (place : Nat) : q.source s place = none := by
  cases q with
  | rewind => rfl
  | touch i access =>
    have houtside : s.size.toNat ≤ i * s.unit.toNat := by simpa [inside] using h
    cases access with
    | write => rfl
    | read => simp [source, blockLength_outside houtside]

theorem target_of_not_inside (h : q.inside s = false) (offset : Nat) :
    q.target s offset = none := by
  cases q with
  | rewind => rfl
  | touch i access =>
    have houtside : s.size.toNat ≤ i * s.unit.toNat := by simpa [inside] using h
    cases access with
    | read => rfl
    | write =>
      simp only [target, blockLength_outside houtside]
      rw [if_neg (by omega)]

theorem of_source_eq_some (h : q.source s place = some offset) :
    ∃ i, q = .touch i .read ∧ place < blockLength s.size.toNat s.unit.toNat i ∧
      offset = i * s.unit.toNat + place := by
  unfold source at h
  split at h
  · split at h
    · next i hplace =>
      obtain rfl : i * s.unit.toNat + place = offset := by simpa using h
      exact ⟨i, rfl, hplace, rfl⟩
    · cases h
  · cases h

theorem of_target_eq_some (h : q.target s offset = some place) :
    ∃ i, q = .touch i .write ∧ place < blockLength s.size.toNat s.unit.toNat i ∧
      offset = i * s.unit.toNat + place := by
  unfold target at h
  split at h
  · split at h
    · next i hoffset =>
      obtain rfl : offset - i * s.unit.toNat = place := by simpa using h
      exact ⟨i, rfl, by omega, by omega⟩
    · cases h
  · cases h

/-- A byte of a block is changed by writing that block alone. -/
theorem of_target_in_block (hplace : place < blockLength s.size.toNat s.unit.toNat i) {place' : Nat}
    (h : q.target s (i * s.unit.toNat + place) = some place') :
    q = .touch i .write ∧ place' = place := by
  obtain ⟨j, rfl, hplace', hoffset⟩ := of_target_eq_some h
  have hend : i * s.unit.toNat + place <
      j * s.unit.toNat + blockLength s.size.toNat s.unit.toNat j := by
    omega
  obtain rfl : i = j := eq_of_in_blocks (Nat.le_add_right _ place)
    (Nat.add_lt_add_left hplace _) (by omega) hend
  exact ⟨rfl, by omega⟩

theorem target_write (hplace : place < blockLength s.size.toNat s.unit.toNat i) :
    (touch i .write).target s (i * s.unit.toNat + place) = some place := by
  rw [target, if_pos ⟨Nat.le_add_right _ _, Nat.add_lt_add_left hplace _⟩, Nat.add_sub_cancel_left]

/-- A byte behind the region, or of a unit that is not written, is not changed. -/
theorem target_eq_none
    (h : s.size.toNat ≤ offset ∨ q ≠ .touch (offset / s.unit.toNat) .write) :
    q.target s offset = none := by
  cases htarget : q.target s offset with
  | none => rfl
  | some place =>
    obtain ⟨i, rfl, hplace, rfl⟩ := of_target_eq_some htarget
    have hunit : place < s.unit.toNat := Nat.lt_of_lt_of_le hplace (Nat.min_le_right _ _)
    have hdiv : (i * s.unit.toNat + place) / s.unit.toNat = i := by
      rw [Nat.mul_comm, Nat.mul_add_div (Nat.zero_lt_of_lt hunit), Nat.div_eq_of_lt hunit]
      rfl
    obtain hbehind | hother := h
    · rw [blockLength] at hplace
      omega
    · rw [hdiv] at hother
      exact absurd rfl hother

end Request

theorem size_freshBuffer (length : Nat) : (freshBuffer length).size = length :=
  Array.size_replicate

theorem getElem?_freshBuffer {length i : Nat} (h : i < length) :
    (freshBuffer length)[i]? = some 0xA5 := by
  change (Array.replicate length (0xA5 : UInt8))[i]? = some 0xA5
  rw [Array.getElem?_replicate, if_pos h]

namespace FileRegion

/-- The region is the first bytes of a file that has all of them, open for writing. -/
structure Serves (s : Scenario) (node : Nat) (store : Store) (r : FileRegion) : Prop where
  size : r.size = s.size
  unit : r.unit = s.unit
  opened : r.opened = .file node
  writable : r.writable = true
  room : r.buffer.size = min s.size.toNat s.unit.toNat
  stored : s.size.toNat ≤ (store.bytes node).size

/-- What a request moves between the buffer and the file. -/
structure Moves (s : Scenario) (node : Nat) (q : Request) (r : FileRegion) (store : Store)
    (r' : FileRegion) (store' : Store) : Prop where
  calls : r'.calls = r.calls + if q.inside s then 1 else 0
  length : (store'.bytes node).size = (store.bytes node).size
  buffer : ∀ place, r'.buffer[place]? =
    (q.source s place).elim r.buffer[place]? fun offset => (store.bytes node)[offset]?
  file : ∀ offset, (store'.bytes node)[offset]? =
    (q.target s offset).elim (store.bytes node)[offset]? fun place => r.buffer[place]?
  others : ∀ other, other ≠ node → store'.bytes other = store.bytes other
  found : ∀ text, store'.find text = store.find text

variable {s : Scenario} {node : Nat} {store : Store} {r : FileRegion} {q : Request} {i : Nat}

theorem moves_outside (h : q.inside s = false) : Moves s node q r store r store where
  calls := by simp [h]
  length := rfl
  buffer := by simp [Request.source_of_not_inside h]
  file := by simp [Request.target_of_not_inside h]
  others := fun _ _ => rfl
  found := fun _ => rfl

theorem Serves.block_le_room (h : r.Serves s node store) (i : Nat) :
    blockLength s.size.toNat s.unit.toNat i ≤ r.buffer.size := by
  rw [h.room, blockLength]
  omega

theorem Serves.moves_read (h : r.Serves s node store) (hi : i * s.unit.toNat < s.size.toNat) :
    (reading node (s.block i) store r).Serves s node store ∧
      Moves s node (.touch i .read) r store (reading node (s.block i) store r) store := by
  have hpiece : ((store.bytes node).extract (i * s.unit.toNat)
      (i * s.unit.toNat + blockLength s.size.toNat s.unit.toNat i)).size =
        blockLength s.size.toNat s.unit.toNat i := size_piece h.stored hi
  unfold reading
  refine ⟨⟨h.size, h.unit, h.opened, h.writable, ?_, h.stored⟩, ?_, rfl, ?_, fun _ => rfl,
    fun _ _ => rfl, fun _ => rfl⟩
  · rw [Scenario.offset_block, Scenario.length_block, size_overwrite, hpiece, Nat.zero_add,
      Nat.max_eq_left (h.block_le_room i), h.room]
  · simp [Request.inside, hi]
  · intro place
    have hend := block_le_size hi
    have hstored := h.stored
    rw [Scenario.offset_block, Scenario.length_block, getElem?_overwrite (Nat.zero_le _), hpiece,
      Request.source]
    by_cases hplace : place < blockLength s.size.toNat s.unit.toNat i
    · rw [if_pos (by omega), if_pos hplace, getElem?_extract, Nat.sub_zero, if_pos (by omega)]
      rfl
    · rw [if_neg (by omega), if_neg hplace]
      rfl

theorem Serves.moves_write (h : r.Serves s node store) (hi : i * s.unit.toNat < s.size.toNat) :
    ({ r with calls := r.calls + 1 } : FileRegion).Serves s node
        (writing node (s.block i) r store) ∧
      Moves s node (.touch i .write) r store { r with calls := r.calls + 1 }
        (writing node (s.block i) r store) := by
  have hend := block_le_size hi
  have hstored := h.stored
  have hroom := h.block_le_room i
  have hnode : node < store.contents.size := store.lt_size_of_bytes node (by omega)
  have hpiece : (r.buffer.extract 0 (blockLength s.size.toNat s.unit.toNat i)).size =
      blockLength s.size.toNat s.unit.toNat i := by
    rw [ByteArray.size_extract]
    omega
  have hlength : ((writing node (s.block i) r store).bytes node).size =
      (store.bytes node).size := by
    rw [writing, Scenario.offset_block, Scenario.length_block,
      Store.bytes_setBytes_self _ _ _ hnode, size_overwrite, hpiece]
    omega
  refine ⟨⟨h.size, h.unit, h.opened, h.writable, h.room, ?_⟩, ?_, hlength, fun _ => rfl, ?_, ?_,
    store.find_setBytes node _⟩
  · rw [hlength]
    exact hstored
  · simp [Request.inside, hi]
  · intro offset
    rw [writing, Scenario.offset_block, Scenario.length_block,
      Store.bytes_setBytes_self _ _ _ hnode, getElem?_overwrite (by omega), hpiece, Request.target]
    split
    · rw [getElem?_extract, if_pos (by omega), Nat.zero_add]
      rfl
    · rfl
  · intro other hother
    exact store.bytes_setBytes_of_ne node _ hother

end FileRegion

end AccessBench
