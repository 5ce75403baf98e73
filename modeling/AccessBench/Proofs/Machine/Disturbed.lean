import AccessBench.Proofs.Benchmark.Frame
import AccessBench.Proofs.Benchmark.Projection
import AccessBench.Proofs.Cache
import AccessBench.Proofs.Fixture
import AccessBench.Proofs.Machine.Confinement

/-!
A machine whose calls fail by themselves. Any call on a region or a counter may stop, in any trial,
and so may the filling of a fixture. Besides, the machine remembers what became of the fixtures that
it was asked to make.
-/

namespace AccessBench

/-- What fails by itself in the surroundings of a run. -/
structure Faults where
  /-- Why a call of a trial stops, by the number of the call. -/
  stop? : Nat → Option Stop := fun _ => none
  /-- After how many bytes filling a fixture fails, and why. -/
  filling? : Option (Nat × Failure) := none
  /-- The numbers of units that no permutation has a buffer for, room or not. -/
  unindexed : Nat → Bool := fun _ => false

structure Disturbed where
  machine : Machine
  /-- The calls of trials that have been made. -/
  calls : Nat := 0
  /-- What became of the fixtures that were asked for. -/
  made : List (Except BenchError FixtureFile) := []

namespace Disturbed

variable {α : Type}

def step (f : Machine → Machine) (w : Disturbed) : Disturbed := { w with machine := f w.machine }

/-- A call that fails by itself is not carried out. -/
def call (faults : Faults) (action : Action Machine α) : Action Disturbed α := fun w =>
  match faults.stop? w.calls with
  | some stop => (.error stop, { w with calls := w.calls + 1 })
  | none =>
    let (answer, m) := action.perform w.machine
    (answer, { w with machine := m, calls := w.calls + 1 })

def rig (faults : Faults) (rig : Rig Machine) : Rig Disturbed where
  metric := rig.metric
  prepare := fun s => step (rig.prepare s)
  acquire := fun s => call faults (rig.acquire s)
  units := fun w => rig.units w.machine
  touch := fun index access => call faults (rig.touch index access)
  rewind := call faults rig.rewind
  release := step rig.release
  startCounter := step rig.startCounter
  sample := call faults rig.sample
  record := fun bytes => step (rig.record bytes)
  clock := fun w => ((rig.clock w.machine).1, w.step fun m => (rig.clock m).2)

def makeFixture (platform : Platform) (faults : Faults) (path : String) (size : UInt64)
    (mode : FillMode) (seed : UInt64) (m : Machine) : Except BenchError FixtureFile × Machine :=
  match faults.filling? with
  | none => (Machine.host platform).createFixture path size mode seed m
  | some (written, failure) =>
    let (made, store) := FixtureFile.createPartly written failure path size mode seed m.store
    (made, { m with store := store })

def host (platform : Platform) (faults : Faults) : Host Disturbed where
  memoryRig := rig faults (Machine.host platform).memoryRig
  fileRig := fun path cache => rig faults ((Machine.host platform).fileRig path cache)
  space := platform.space
  canIndex := fun units => if faults.unindexed units then false else platform.space.canIndex units
  probeCache := fun settle w => (Machine.host platform).probeCache settle w.machine
  createFixture := fun path size mode seed w =>
    let (made, m) := makeFixture platform faults path size mode seed w.machine
    (made, { w with machine := m, made := w.made ++ [made] })
  adoptFixture := fun path w => (Machine.host platform).adoptFixture path w.machine
  discardFixture := fun f => step ((Machine.host platform).discardFixture f)

/-! ### Without faults -/

theorem projects_call (action : Action Machine α) :
    (call {} action).Projects Disturbed.machine action := fun _ => rfl

theorem projects_rig (base : Rig Machine) : (rig {} base).Projects Disturbed.machine base where
  metric := rfl
  prepare := fun _ _ => rfl
  acquire := fun s => projects_call (base.acquire s)
  units := fun _ => rfl
  touch := fun i access => projects_call (base.touch i access)
  rewind := projects_call base.rewind
  release := fun _ => rfl
  startCounter := fun _ => rfl
  sample := projects_call base.sample
  record := fun _ _ => rfl
  clock := fun _ => rfl

theorem projects_host (platform : Platform) :
    (host platform {}).Projects Disturbed.machine (Machine.host platform) where
  memoryRig := projects_rig _
  fileRig := fun _ _ => projects_rig _
  space := rfl
  canIndex := rfl
  probeCache := fun _ _ => rfl
  createFixture := fun _ _ _ _ _ => rfl
  adoptFixture := fun _ _ => rfl
  discardFixture := fun _ _ => rfl

/-- Where nothing fails by itself, runs are those on the machine. -/
theorem run_machine {τ : Type} (platform : Platform) (b : Benchmark) (sink : Sink τ) (suites : Suites)
    (w : Disturbed) (state : τ) :
    b.run (Machine.host platform) sink suites w.machine state =
      ((b.run (host platform {}) sink suites w state).1,
        (b.run (host platform {}) sink suites w state).2.through Disturbed.machine) :=
  Benchmark.run_through sink (projects_host platform) suites w state

/-! ### With faults -/

variable {faults : Faults} {inv : Machine → Prop} {made : List (Except BenchError FixtureFile)}

theorem preserves_call {action : Action Machine α} (h : action.Preserves inv) :
    (call faults action).Preserves fun w => inv w.machine ∧ w.made = made := by
  intro w hw
  obtain ⟨hm, hmade⟩ := hw
  have hperform : (call faults action).perform w =
      match faults.stop? w.calls with
      | some stop => (.error stop, { w with calls := w.calls + 1 })
      | none => ((action.perform w.machine).1,
          { w with machine := (action.perform w.machine).2, calls := w.calls + 1 }) := rfl
  rw [hperform]
  cases faults.stop? w.calls with
  | some stop => exact ⟨hm, hmade⟩
  | none => exact ⟨h w.machine hm, hmade⟩

/-- What a scenario preserves on a rig it preserves where calls fail, too. -/
theorem preserves_rig {base : Rig Machine} {s : Scenario} (h : base.Preserves inv s) :
    (rig faults base).Preserves (fun w => inv w.machine ∧ w.made = made) s where
  prepare := fun w hw => ⟨h.prepare w.machine hw.1, hw.2⟩
  acquire := preserves_call h.acquire
  touch := fun i => preserves_call (h.touch i)
  rewind := preserves_call h.rewind
  release := fun w hw => ⟨h.release w.machine hw.1, hw.2⟩
  startCounter := fun w hw => ⟨h.startCounter w.machine hw.1, hw.2⟩
  sample := preserves_call h.sample
  record := fun bytes w hw => ⟨h.record bytes w.machine hw.1, hw.2⟩
  clock := fun w hw => ⟨h.clock w.machine hw.1, hw.2⟩

theorem makeFixture_cases (platform : Platform) (faults : Faults) {m : Machine} (hs : m.store.Sound)
    (path : String) (size : UInt64) (mode : FillMode) (seed : UInt64) :
    (∃ e m', makeFixture platform faults path size mode seed m = (.error e, m') ∧
      (m'.store = m.store ∨ ∃ place, m.store.resolve path = .ok place ∧ m'.store.Sound ∧
        m'.store.sight? place = none ∧
        ∀ p, p ≠ place → m'.store.sight? p = m.store.sight? p)) ∨
      ∃ place m', makeFixture platform faults path size mode seed m =
          (.ok ⟨path, size, true⟩, m') ∧ m.store.resolve path = .ok place ∧
        Path.needsDirectory path = false ∧
        Store.Gains place (fixtureContent mode seed size.toNat) m.store m'.store := by
  rw [makeFixture]
  cases faults.filling? with
  | none =>
    have hcreate : (Machine.host platform).createFixture path size mode seed m =
        ((FixtureFile.create path size mode seed m.store).1,
          { m with store := (FixtureFile.create path size mode seed m.store).2 }) := rfl
    dsimp only
    rw [hcreate]
    obtain ⟨e, hrefused⟩ | ⟨place, t, hmade, hplace, hslash, hgains⟩ :=
      FixtureFile.create_cases hs path size mode seed
    · rw [hrefused]
      exact .inl ⟨e, m, rfl, .inl rfl⟩
    · rw [hmade]
      exact .inr ⟨place, { m with store := t }, rfl, hplace, hslash, hgains⟩
  | some filling =>
    obtain ⟨written, failure⟩ := filling
    obtain ⟨e, t, hfailed, hleft⟩ :=
      FixtureFile.createPartly_cases hs written failure path size mode seed
    dsimp only
    rw [hfailed]
    exact .inl ⟨e, { m with store := t }, rfl, hleft⟩

end Disturbed

namespace Machine

/-- The machine has the store, and no file of it is open. -/
def HasClosed (store : Store) (m : Machine) : Prop :=
  m.store = store ∧ ∀ r, m.region ≠ some (.file r)

theorem preserves_memoryRig (platform : Platform) (store : Store) (s : Scenario) :
    (memoryRig platform).Preserves (HasClosed store) s where
  prepare := fun _ hm => hm
  acquire := by
    intro m hm
    rw [perform_acquire_memoryRig]
    cases MemoryRegion.map platform.space s.size s.unit with
    | error e => exact hm
    | ok r => exact ⟨hm.1, nofun⟩
  touch := by
    intro i m hm
    obtain ⟨store', region?, counter, clockReadings, faultReadings⟩ := m
    cases region? with
    | none => exact hm
    | some region =>
      cases region with
      | memory r => exact ⟨hm.1, nofun⟩
      | file r => exact absurd rfl (hm.2 r)
  rewind := .pure ()
  release := fun _ hm => ⟨hm.1, nofun⟩
  startCounter := fun _ hm => hm
  sample := fun _ hm => hm
  record := fun _ _ hm => hm
  clock := fun _ hm => hm

/-- Reading a file leaves the store as it is, but for the knob that is turned before. -/
theorem preserves_fileRig (platform : Platform) (path : String) (cache : CacheControl)
    (masked : Store) {s : Scenario} (hread : s.access = .read) :
    (fileRig platform path cache).Preserves (fun m => m.store.masking cache.knob = masked) s where
  prepare := by
    intro m hm
    have hprepare : (fileRig platform path cache).prepare s m = prepareFile path cache s m := rfl
    rw [hprepare, prepareFile]
    split
    · dsimp only
      obtain hkept | ⟨place, node, hknob, hturned⟩ := cache.drop_cases (some path) m.store
      · rw [hkept]
        exact hm
      · rw [hturned, Store.masking_setBytes hknob]
        exact hm
    · exact hm
  acquire := by
    intro m hm
    rw [perform_acquire_fileRig]
    cases FileRegion.openAt platform.space m.store path s.size s.unit (s.access = .write) with
    | error stop => exact hm
    | ok r => exact hm
  touch := by
    intro i m hm
    obtain ⟨store, region?, counter, clockReadings, faultReadings⟩ := m
    rw [hread]
    cases region? with
    | none => exact hm
    | some region =>
      cases region with
      | memory r => exact hm
      | file r =>
        have htouch : (r.touch i .read store).2.2 = store := by
          rw [FileRegion.touch]
          split <;> rfl
        change (r.touch i .read store).2.2.masking cache.knob = masked
        rw [htouch]
        exact hm
  rewind := .pure ()
  release := fun _ hm => hm
  startCounter := fun _ hm => hm
  sample := fun _ hm => hm
  record := fun _ _ hm => hm
  clock := fun _ hm => hm

end Machine

end AccessBench
