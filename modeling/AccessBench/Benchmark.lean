import AccessBench.Cache
import AccessBench.Fixture
import AccessBench.Report.Event
import AccessBench.Scenario.Matrix
import AccessBench.Suites
import AccessBench.Trial

/-!
Runs: the matrices of the selected suites, scenario by scenario, reported to a sink. What goes wrong
below a run becomes a failed row or a note; only a sink that fails and a halt end it.
-/

namespace AccessBench

/-- The surroundings of a run, over states of type `σ`. -/
structure Host (σ : Type) where
  memoryRig : Rig σ
  fileRig : String → CacheControl → Rig σ
  space : AddressSpace
  /-- Whether the buffer for a permutation of so many units can be allocated. -/
  canIndex : Nat → Bool
  probeCache : Duration → σ → CacheControl
  createFixture : String → UInt64 → FillMode → UInt64 → σ → Except BenchError FixtureFile × σ
  adoptFixture : String → σ → Except BenchError FixtureFile
  discardFixture : FixtureFile → σ → σ

structure Benchmark where
  config : Config
  /-- Takes the file at the configured path instead of making one. -/
  reuseFixture : Bool := false
  /-- Leaves a file that was made in place. -/
  keepFixture : Bool := false
  /-- The control to use instead of looking for one. -/
  cache : Option CacheControl := none

structure Summary where
  rows : Nat := 0
  failed : Nat := 0
  /-- Sections and suites of which something was left out, with a note. -/
  skipped : Nat := 0
  deriving DecidableEq, Repr, Inhabited

/-- The state of a run: its surroundings, the sink, the lines for the diagnostics and the counts. -/
structure Run (σ τ : Type) where
  world : σ
  sink : τ
  diagnostics : List String := []
  summary : Summary := {}

def completionBanner : String := "Benchmark Complete"

namespace Run

variable {σ τ : Type}

def print (lines : List String) (r : Run σ τ) : Run σ τ :=
  { r with diagnostics := r.diagnostics ++ lines }

/-- Hands an event to the sink. A sink that fails is the only error of a run. -/
def emit (sink : Sink τ) (event : Event) : Action (Run σ τ) Unit := fun r =>
  let reply := sink.receive event r.sink
  let r := { r with sink := reply.state }.print reply.notices
  (reply.result.mapError fun failure => .failed (.output failure), r)

def countSkipped (r : Run σ τ) : Run σ τ :=
  { r with summary := { r.summary with skipped := r.summary.skipped + 1 } }

def countRow (row : Row) (r : Run σ τ) : Run σ τ :=
  { r with summary := { r.summary with
      rows := r.summary.rows + 1
      failed := r.summary.failed + if row.failed then 1 else 0 } }

end Run

namespace Benchmark

variable {σ τ : Type} (host : Host σ) (sink : Sink τ) (b : Benchmark)

def measureScenario (rig : Rig σ) (s : Scenario) (pattern : AccessPattern) :
    Action (Run σ τ) Row := fun r =>
  match (rig.repeatTrials host.space b.config.iterations s pattern).perform r.world with
  | (.ok (row, lines), world) => (.ok row, { r with world := world }.print lines)
  | (.error stop, world) => (.error stop, { r with world := world })

/-- Runs the scenarios of a section. A pattern that cannot be made ends the section with a note. -/
def runScenarios (rig : Rig σ) (title : String) (cache : PermutationCache) :
    List Scenario → Action (Run σ τ) Unit
  | [] => return ()
  | s :: rest => do
    let units ← Action.ofHalting s.units
    match s.kind.materialize host.canIndex units b.config.randomSeed cache with
    | (.error e, _) =>
      Action.update fun r => ((), r.print ["Error: " ++ title ++ ": " ++ e.message])
      Run.emit sink (.noted e.message)
      Action.update fun r => ((), r.countSkipped)
    | (.ok pattern, cache) =>
      let row ← b.measureScenario host rig s pattern
      Action.update fun r => ((), r.countRow row)
      Run.emit sink (.measured row)
      runScenarios rig title cache rest

/-- Runs the sections of a matrix. No permutation is kept from one section to the next. -/
def runMatrix (rig : Rig σ) : Matrix → Action (Run σ τ) Unit
  | [] => return ()
  | s :: rest => do
    Run.emit sink (.entered s.title s.suite)
    b.runScenarios host sink rig s.title none s.scenarios
    runMatrix rig rest

def iterationsText : String := toString (Rig.repetitions b.config.iterations)

def memoryOpening : Event :=
  .opened "Memory Prefetch Benchmark" [
    "Page Size: " ++ toString b.config.memory.pageSize ++ " bytes | Iterations: " ++
      b.iterationsText]

def runMemory : Action (Run σ τ) Unit := do
  Run.emit sink b.memoryOpening
  b.runMatrix host sink host.memoryRig b.config.memory.matrix

def fileOpening (cache : CacheControl) : Event :=
  .opened "File Readahead Benchmark" [
    "Test file: " ++ b.config.file.path,
    "File size: " ++
      if b.reuseFixture then "existing" else byteLabel b.config.file.fileSize,
    "Cache drop: " ++ if cache.supported then "global" else "fadvise",
    "Iterations: " ++ b.iterationsText]

def cacheControl (world : σ) : CacheControl :=
  b.cache.getD (host.probeCache b.config.file.settleDelay world)

def prepareFixture (world : σ) : Except BenchError FixtureFile × σ :=
  if b.reuseFixture then (host.adoptFixture b.config.file.path world, world)
  else
    let (made, world) := host.createFixture b.config.file.path b.config.file.fileSize
      b.config.file.fill b.config.randomSeed world
    (made.map fun f => if b.keepFixture then f.keep else f, world)

def runFileMatrix (cache : CacheControl) (fixture : FixtureFile) : Action (Run σ τ) Unit := do
  let m ← Action.ofHalting (b.config.file.matrix fixture.length)
  b.runMatrix host sink (host.fileRig fixture.path cache) m

/-- Runs the file suite over a fixture, and then ends the use of the fixture however that ended. Only
a program that ends on the spot does not come to it. -/
def runOverFixture (cache : CacheControl) (fixture : FixtureFile) : Action (Run σ τ) Unit :=
  (b.runFileMatrix host sink cache fixture).unwinding fun r =>
    { r with world := host.discardFixture fixture r.world }

def skipFile (e : BenchError) : Action (Run σ τ) Unit := do
  let message := "Failed to prepare test file: " ++ e.message
  Action.update fun r => ((), r.print ["Error: " ++ message])
  Run.emit sink (.noted message)
  Action.update fun r => ((), r.countSkipped)

def runFile : Action (Run σ τ) Unit := do
  let cache ← Action.update fun r => (b.cacheControl host r.world, r)
  Run.emit sink (b.fileOpening cache)
  let fixture ← Action.update fun r =>
    let (fixture, world) := b.prepareFixture host r.world
    (fixture, { r with world := world })
  match fixture with
  | .ok fixture => b.runOverFixture host sink cache fixture
  | .error e => skipFile sink e

/-- Runs the selected suites, memory before file, and finishes the report. -/
def runSuites (suites : Suites) : Action (Run σ τ) Unit := do
  if suites.coversMemory then b.runMemory host sink
  if suites.coversFile then b.runFile host sink
  Run.emit sink (.finished completionBanner)

def run (suites : Suites) (world : σ) (state : τ) : Except Stop Summary × Run σ τ :=
  let (result, r) := (b.runSuites host sink suites).perform { world := world, sink := state }
  (result.map fun () => r.summary, r)

end Benchmark

end AccessBench
