import AccessBench.Proofs.Machine.Confinement
import AccessBench.Proofs.Trial.Totality

/-!
Trials on a machine. They never halt, unless a unit has no bytes or there is no room for a buffer of
one.
-/

namespace AccessBench.Machine

variable (platform : Platform) {s : Scenario}

theorem neverHalts_memoryRig (hunit : s.unit ≠ 0) : (memoryRig platform).NeverHalts s where
  acquire := by
    intro m
    rw [perform_acquire_memoryRig]
    obtain ⟨e, hmap, -⟩ | hmap := MemoryRegion.map_cases platform.space s.size s.unit
    · rw [hmap]
      exact .inl ⟨e, rfl⟩
    · rw [hmap]
      exact .inr ⟨rfl, _, unitCount_of_ne_zero hunit⟩
  touch := fun _ _ => .ofStep fun _ _ _ => trivial
  rewind := .pure trivial
  sample := .update fun _ => trivial

theorem neverHalts_fileRig (path : String) (cache : CacheControl) (hunit : s.unit ≠ 0)
    (hroom : platform.space.obtain s.unit.toNat = .ok ()) :
    (fileRig platform path cache).NeverHalts s where
  acquire := by
    intro m
    rw [perform_acquire_fileRig, FileRegion.openAt]
    split
    · exact .inl ⟨_, rfl⟩
    · dsimp only
      split
      · exact .inl ⟨_, rfl⟩
      · rw [hroom]
        exact .inr ⟨rfl, _, unitCount_of_ne_zero hunit⟩
  touch := fun _ _ => .ofStep fun _ _ _ => trivial
  rewind := .pure trivial
  sample := .update fun _ => trivial

/-- A clock and a count that stand still, and little room. -/
def still : Platform where
  clock := fun _ => .zero
  faults := fun _ => 0
  space := .limited 0x100000

end AccessBench.Machine
