import AccessBench.Machine
import AccessBench.Proofs.Region.Transfer
import AccessBench.Proofs.Trial.Confinement

/-!
Regions of a machine refuse exactly the units that do not begin inside them. Whatever else fails
there, reading, writing or opening, is told apart from that.
-/

namespace AccessBench

namespace Region

def size : Region → UInt64
  | memory r => r.size
  | file r => r.size

def unit : Region → UInt64
  | memory r => r.unit
  | file r => r.unit

theorem units_eq (r : Region) : r.units = unitCount r.size r.unit := by
  cases r <;> rfl

end Region

theorem not_misfit_io {call : String} (hcall : call ≠ "touch") (offset : Nat) (failure : Failure) :
    ¬ (BenchError.io call offset failure).Misfit := by
  intro h
  cases h
  exact hcall rfl

theorem MemoryRegion.touch_of_lt {r : MemoryRegion} {i : Nat} (access : Access)
    (h : i * r.unit.toNat < r.size.toNat) :
    (r.touch i access).1 = .ok 1 ∧ (r.touch i access).2.size = r.size ∧
      (r.touch i access).2.unit = r.unit := by
  have hoffset : unitOffset i r.unit < r.size.toNat := by
    rw [unitOffset_of_lt h]
    exact h
  cases access with
  | read | write => simp [touch, hoffset]

/-- Inside its region a file may still refuse a call, but not for where the unit is. -/
theorem FileRegion.touch_of_lt {r : FileRegion} {i : Nat} (access : Access) (s : Store)
    (h : i * r.unit.toNat < r.size.toNat) :
    (r.touch i access s).2.1.size = r.size ∧ (r.touch i access s).2.1.unit = r.unit ∧
      ∀ e, (r.touch i access s).1 = .error e → ¬ e.Misfit := by
  have hoffset : unitOffset i r.unit < r.size.toNat := by
    rw [unitOffset_of_lt h]
    exact h
  rw [touch, if_pos hoffset]
  cases access with
  | read =>
    dsimp only [FileRegion.read]
    cases s.readAt r.opened (unitOffset i r.unit)
        (min (r.size.toNat - unitOffset i r.unit) r.unit.toNat) with
    | error failure =>
      refine ⟨rfl, rfl, ?_⟩
      intro e he
      cases he
      exact not_misfit_io (by decide) _ _
    | ok piece =>
      refine ⟨rfl, rfl, ?_⟩
      intro e he
      cases he
  | write =>
    dsimp only [FileRegion.write]
    refine ⟨rfl, rfl, ?_⟩
    intro e he
    split at he
    · split at he
      · cases he
        exact not_misfit_io (by decide) _ _
      · cases he
    · cases he
      exact not_misfit_io (by decide) _ _

theorem MemoryRegion.map_cases (space : AddressSpace) (size unit : UInt64) :
    (∃ e, map space size unit = .error e ∧ ¬ e.Misfit) ∨
      map space size unit = .ok { size := size, unit := unit } := by
  rw [map]
  cases space.mapFailure? size.toNat with
  | some failure => exact .inl ⟨_, rfl, nofun⟩
  | none => exact .inr rfl

theorem FileRegion.openAt_cases (space : AddressSpace) (s : Store) (path : String)
    (size unit : UInt64) (writable : Bool) :
    (∃ e, openAt space s path size unit writable = .error (.failed e) ∧ ¬ e.Misfit) ∨
      (∃ reason, openAt space s path size unit writable = .error (.halted reason)) ∨
      ∃ opened, s.openExisting path writable = .ok opened ∧
        openAt space s path size unit writable = .ok (fresh path opened size unit writable) := by
  rw [openAt]
  cases s.openExisting path writable with
  | error failure =>
    refine .inl ⟨_, rfl, ?_⟩
    rintro ⟨⟩
  | ok opened =>
    dsimp only
    split
    · refine .inl ⟨_, rfl, ?_⟩
      rintro ⟨⟩
    · cases space.obtain unit.toNat with
      | error reason => exact .inr (.inl ⟨reason, rfl⟩)
      | ok _ => exact .inr (.inr ⟨opened, rfl, rfl⟩)

namespace Machine

/-- The machine has a region that was taken for the scenario. -/
def Holds (s : Scenario) (m : Machine) : Prop :=
  ∃ region, m.region = some region ∧ region.size = s.size ∧ region.unit = s.unit

theorem units_of_holds {s : Scenario} {m : Machine} (hunit : s.unit ≠ 0) (h : m.Holds s) :
    m.units = .ok (unitsToCover s.size.toNat s.unit.toNat) := by
  obtain ⟨region, hregion, hsize, hregionUnit⟩ := h
  rw [units, hregion]
  dsimp only
  rw [Region.units_eq, hsize, hregionUnit, unitCount_of_ne_zero hunit]

theorem keeps_touch {s : Scenario} {i : Nat} (access : Access)
    (h : i * s.unit.toNat < s.size.toNat) :
    (Action.ofStep (touch i access)).Keeps (Holds s) Stop.IsFit := by
  intro m hm
  obtain ⟨store, region?, counter, clockReadings, faultReadings⟩ := m
  obtain ⟨region, hregion, hsize, hunit⟩ := hm
  obtain rfl : region? = some region := hregion
  rw [Action.perform_ofStep]
  cases region with
  | memory r =>
    have hinside : i * r.unit.toNat < r.size.toNat := by
      change r.size = s.size at hsize
      change r.unit = s.unit at hunit
      rw [hsize, hunit]
      exact h
    obtain ⟨hok, hkeptSize, hkeptUnit⟩ := MemoryRegion.touch_of_lt access hinside
    simp only [touch, Region.touch, hok]
    exact ⟨_, rfl, hkeptSize.trans hsize, hkeptUnit.trans hunit⟩
  | file r =>
    have hinside : i * r.unit.toNat < r.size.toNat := by
      change r.size = s.size at hsize
      change r.unit = s.unit at hunit
      rw [hsize, hunit]
      exact h
    obtain ⟨hkeptSize, hkeptUnit, hfails⟩ := FileRegion.touch_of_lt access store hinside
    simp only [touch, Region.touch]
    cases hmoved : (r.touch i access store).1 with
    | ok moved => exact ⟨_, rfl, hkeptSize.trans hsize, hkeptUnit.trans hunit⟩
    | error e =>
      intro e' he
      cases he
      exact hfails e hmoved

theorem perform_acquire_memoryRig (platform : Platform) (s : Scenario) (m : Machine) :
    ((memoryRig platform).acquire s).perform m =
      m.take (((MemoryRegion.map platform.space s.size s.unit).map .memory).mapError .failed) :=
  rfl

theorem perform_acquire_fileRig (platform : Platform) (path : String) (cache : CacheControl)
    (s : Scenario) (m : Machine) :
    ((fileRig platform path cache).acquire s).perform m =
      m.take ((FileRegion.openAt platform.space m.store path s.size s.unit
        (s.access = .write)).map .file) := rfl

theorem confines_memoryRig (platform : Platform) {s : Scenario} (hunit : s.unit ≠ 0) :
    (memoryRig platform).Confines s (Holds s) where
  acquire := by
    intro m
    rw [perform_acquire_memoryRig]
    obtain ⟨e, hmap, hfit⟩ | hmap := MemoryRegion.map_cases platform.space s.size s.unit
    · rw [hmap]
      intro e' he
      cases he
      exact hfit
    · rw [hmap]
      exact ⟨_, rfl, rfl, rfl⟩
  units := fun _ => units_of_holds hunit
  touch := fun _ access => keeps_touch access
  rewind := .pure ()
  sample := fun _ hm => hm
  startCounter := fun _ hm => hm
  record := fun _ _ hm => hm
  clock := fun _ hm => hm

theorem confines_fileRig (platform : Platform) (path : String) (cache : CacheControl) {s : Scenario}
    (hunit : s.unit ≠ 0) : (fileRig platform path cache).Confines s (Holds s) where
  acquire := by
    intro m
    rw [perform_acquire_fileRig]
    obtain ⟨e, hopen, hfit⟩ | ⟨reason, hopen⟩ | ⟨opened, -, hopen⟩ :=
      FileRegion.openAt_cases platform.space m.store path s.size s.unit (s.access = .write)
    · rw [hopen]
      intro e' he
      cases he
      exact hfit
    · rw [hopen]
      intro e he
      cases he
    · rw [hopen]
      exact ⟨_, rfl, rfl, rfl⟩
  units := fun _ => units_of_holds hunit
  touch := fun _ access => keeps_touch access
  rewind := .pure ()
  sample := fun _ hm => hm
  startCounter := fun _ hm => hm
  record := fun _ _ hm => hm
  clock := fun _ hm => hm

end Machine

end AccessBench
