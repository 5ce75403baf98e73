import AccessBench.Benchmark
import AccessBench.Region.File

/-!
A machine: a file store, a region of memory or of a file, a clock and a count of page faults. It is
the surroundings of a whole run.
-/

namespace AccessBench

inductive Region
  | memory (region : MemoryRegion)
  | file (region : FileRegion)

/-- What a machine is built on: the readings of its clock and of its fault count, by the number of
the reading, and its memory. -/
structure Platform where
  clock : Nat → Duration
  faults : Nat → UInt64
  space : AddressSpace

structure Machine where
  store : Store := {}
  region : Option Region := none
  counter : TransferCounter := {}
  clockReadings : Nat := 0
  faultReadings : Nat := 0

namespace Region

def units : Region → Except Halt Nat
  | memory r => r.units
  | file r => r.units

def touch (index : Nat) (access : Access) (s : Store) :
    Region → Except BenchError UInt64 × Region × Store
  | memory r =>
    let (moved, r) := r.touch index access
    (moved, .memory r, s)
  | file r =>
    let (moved, r, s) := r.touch index access s
    (moved, .file r, s)

end Region

namespace Machine

def take (made : Except Stop Region) (m : Machine) : Except Stop Unit × Machine :=
  match made with
  | .ok region => (.ok (), { m with region := some region })
  | .error e => (.error e, m)

def touch (index : Nat) (access : Access) (m : Machine) : Except BenchError UInt64 × Machine :=
  match m with
  | ⟨store, some region, counter, clockReadings, faultReadings⟩ =>
    let (moved, region, store) := region.touch index access store
    (moved, ⟨store, some region, counter, clockReadings, faultReadings⟩)
  | m => (.error (outOfRange 0), m)

def units (m : Machine) : Except Halt Nat :=
  match m.region with
  | some region => region.units
  | none => .ok 0

def readClock (platform : Platform) (m : Machine) : Duration × Machine :=
  (platform.clock m.clockReadings, { m with clockReadings := m.clockReadings + 1 })

def readFaults (platform : Platform) (m : Machine) : UInt64 × Machine :=
  (platform.faults m.faultReadings, { m with faultReadings := m.faultReadings + 1 })

def release (m : Machine) : Machine := { m with region := none }

/-- Trials over anonymous memory, measured by page faults. -/
def memoryRig (platform : Platform) : Rig Machine where
  metric := .pageFaults
  prepare := fun _ m => m
  acquire := fun s =>
    take (((MemoryRegion.map platform.space s.size s.unit).map .memory).mapError .failed)
  units := units
  touch := fun index access => .ofStep (touch index access)
  rewind := return ()
  release := release
  startCounter := fun m => m
  sample := .update (readFaults platform)
  record := fun _ m => m
  clock := readClock platform

/-- Drops pages before a trial over a cold cache. -/
def prepareFile (path : String) (cache : CacheControl) (s : Scenario) (m : Machine) : Machine :=
  if s.dropCache then { m with store := (cache.drop (some path) m.store).2 } else m

/-- Trials over the file at a path, measured by the bytes transferred. -/
def fileRig (platform : Platform) (path : String) (cache : CacheControl) : Rig Machine where
  metric := .bytesTransferred
  prepare := prepareFile path cache
  acquire := fun s m =>
    let opened :=
      FileRegion.openAt platform.space m.store path s.size s.unit (s.access = .write)
    m.take (opened.map .file)
  units := units
  touch := fun index access => .ofStep (touch index access)
  rewind := return ()
  release := release
  startCounter := fun m => { m with counter := {} }
  sample := .update fun m => (m.counter.total, m)
  record := fun bytes m => { m with counter := m.counter.record bytes }
  clock := readClock platform

/-- The machine as the surroundings of a run. -/
def host (platform : Platform) : Host Machine where
  memoryRig := memoryRig platform
  fileRig := fileRig platform
  space := platform.space
  canIndex := platform.space.canIndex
  probeCache := fun settle m => CacheControl.probe defaultKnob settle m.store
  createFixture := fun path size mode seed m =>
    let (made, store) := FixtureFile.create path size mode seed m.store
    (made, { m with store := store })
  adoptFixture := fun path m => FixtureFile.adopt path m.store
  discardFixture := fun f m => { m with store := f.discard m.store }

end Machine

end AccessBench
