import AccessBench.Proofs.Benchmark.Feed
import AccessBench.Proofs.Trial.Projection

/-!
Runs in surroundings that hold more than a host needs. When a host is another one seen through a
view of its states, then so are whole runs: they end in the same way, and the sink gets the same
events.
-/

namespace AccessBench

variable {σ σ' τ : Type} {view : σ → σ'}

/-- A run as it is seen through a view of its surroundings. -/
def Run.through (view : σ → σ') (r : Run σ τ) : Run σ' τ :=
  ⟨view r.world, r.sink, r.diagnostics, r.summary⟩

theorem Run.projects_emit (sink : Sink τ) (event : Event) :
    (Run.emit (σ := σ) sink event).Projects (Run.through view) (Run.emit sink event) := fun _ => rfl

/-- Everything in the second host is as in the first one, seen through the view. -/
structure Host.Projects (view : σ → σ') (host : Host σ) (image : Host σ') : Prop where
  memoryRig : host.memoryRig.Projects view image.memoryRig
  fileRig : ∀ path cache, (host.fileRig path cache).Projects view (image.fileRig path cache)
  space : image.space = host.space
  canIndex : image.canIndex = host.canIndex
  probeCache : ∀ settle w, image.probeCache settle (view w) = host.probeCache settle w
  createFixture : ∀ path size mode seed w, image.createFixture path size mode seed (view w) =
    ((host.createFixture path size mode seed w).1,
      view (host.createFixture path size mode seed w).2)
  adoptFixture : ∀ path w, image.adoptFixture path (view w) = host.adoptFixture path w
  discardFixture : ∀ f w, image.discardFixture f (view w) = view (host.discardFixture f w)

namespace Benchmark

variable {b : Benchmark} (sink : Sink τ)

section

variable {host : Host σ} {image : Host σ'} (h : host.Projects view image)

include h

theorem projects_measureScenario {rig : Rig σ} {rig' : Rig σ'} (hrig : rig.Projects view rig')
    (s : Scenario) (pattern : AccessPattern) :
    (b.measureScenario (τ := τ) host rig s pattern).Projects (Run.through view)
      (b.measureScenario image rig' s pattern) := by
  intro r
  have hrow := hrig.repeatTrials host.space b.config.iterations s pattern r.world
  have hworld : (r.through view).world = view r.world := rfl
  rw [perform_measureScenario, perform_measureScenario, hworld, h.space, hrow]
  rcases (rig.repeatTrials host.space b.config.iterations s pattern).perform r.world with
    ⟨stop | ⟨row, lines⟩, v⟩
  · rfl
  · rfl

theorem projects_runScenarios {rig : Rig σ} {rig' : Rig σ'} (hrig : rig.Projects view rig')
    (title : String) (cache : PermutationCache) (scenarios : List Scenario) :
    (b.runScenarios host sink rig title cache scenarios).Projects (Run.through view)
      (b.runScenarios image sink rig' title cache scenarios) := by
  induction scenarios generalizing cache with
  | nil => exact .pure ()
  | cons s rest ih =>
    refine Action.Projects.bind (.ofAnswer _) fun units => ?_
    rw [h.canIndex]
    rcases s.kind.materialize host.canIndex units b.config.randomSeed cache with ⟨e | pattern, kept⟩
    · exact Action.Projects.bind (.update fun _ => rfl) fun _ =>
        (Run.projects_emit sink _).bind fun _ => .update fun _ => rfl
    · exact (projects_measureScenario h hrig s pattern).bind fun row =>
        Action.Projects.bind (.update fun _ => rfl) fun _ =>
          (Run.projects_emit sink _).bind fun _ => ih kept

theorem projects_runMatrix {rig : Rig σ} {rig' : Rig σ'} (hrig : rig.Projects view rig')
    (m : Matrix) :
    (b.runMatrix host sink rig m).Projects (Run.through view) (b.runMatrix image sink rig' m) := by
  induction m with
  | nil => exact .pure ()
  | cons part rest ih =>
    exact (Run.projects_emit sink _).bind fun _ =>
      (projects_runScenarios sink h hrig part.title none part.scenarios).bind fun _ => ih

theorem projects_runFileMatrix (cache : CacheControl) (fixture : FixtureFile) :
    (b.runFileMatrix host sink cache fixture).Projects (Run.through view)
      (b.runFileMatrix image sink cache fixture) :=
  Action.Projects.bind (.ofAnswer _) fun m =>
    projects_runMatrix sink h (h.fileRig fixture.path cache) m

theorem prepareFixture_view (w : σ) : b.prepareFixture image (view w) =
    ((b.prepareFixture host w).1, view (b.prepareFixture host w).2) := by
  rw [prepareFixture, prepareFixture]
  split
  · rw [h.adoptFixture]
  · rw [h.createFixture]

theorem projects_runFile :
    (b.runFile host sink).Projects (Run.through view) (b.runFile image sink) := by
  have hcache : (Action.update fun r => (b.cacheControl host r.world, r)).Projects
      (Run.through (τ := τ) view) (Action.update fun r => (b.cacheControl image r.world, r)) := by
    refine .update fun r => ?_
    have hprobe := h.probeCache b.config.file.settleDelay r.world
    have hsame : b.cacheControl image (view r.world) = b.cacheControl host r.world := by
      rw [cacheControl, cacheControl, hprobe]
    exact congrArg (·, r.through view) hsame
  have hfixture : (Action.update fun r : Run σ τ => ((b.prepareFixture host r.world).1,
        { r with world := (b.prepareFixture host r.world).2 })).Projects (Run.through view)
      (Action.update fun r => ((b.prepareFixture image r.world).1,
        { r with world := (b.prepareFixture image r.world).2 })) := by
    refine .update fun r => ?_
    have hprepared := prepareFixture_view (b := b) h r.world
    have hworld : (r.through view).world = view r.world := rfl
    rw [hworld, hprepared]
    rfl
  refine hcache.bind fun cache => (Run.projects_emit sink _).bind fun _ =>
    hfixture.bind fun fixture => ?_
  rcases fixture with e | fixture
  · exact Action.Projects.bind (.update fun _ => rfl) fun _ =>
      (Run.projects_emit sink _).bind fun _ => .update fun _ => rfl
  · refine (projects_runFileMatrix sink h cache fixture).unwinding fun r => ?_
    change Run.mk (image.discardFixture fixture (view r.world)) _ _ _ = _
    rw [h.discardFixture]
    rfl

theorem projects_runSuites (suites : Suites) :
    (b.runSuites host sink suites).Projects (Run.through view) (b.runSuites image sink suites) := by
  have hmemory : (b.runMemory host sink).Projects (Run.through view) (b.runMemory image sink) :=
    (Run.projects_emit sink _).bind fun _ => projects_runMatrix sink h h.memoryRig _
  have hfile := projects_runFile (b := b) sink h
  have hfinish : (Run.emit sink (.finished completionBanner)).Projects (Run.through view)
      (Run.emit sink (.finished completionBanner)) := Run.projects_emit sink _
  cases suites with
  | all => exact hmemory.bind fun _ => hfile.bind fun _ => hfinish
  | memory => exact hmemory.bind fun _ => hfinish
  | file => exact hfile.bind fun _ => hfinish

/-- A run ends as it does in the surroundings behind the view, and leaves what is seen of them. -/
theorem run_through (suites : Suites) (w : σ) (state : τ) :
    b.run image sink suites (view w) state =
      ((b.run host sink suites w state).1, (b.run host sink suites w state).2.through view) := by
  have hruns := projects_runSuites (b := b) sink h suites { world := w, sink := state }
  have hbegun : Run.through view { world := w, sink := state } =
      { world := view w, sink := state } := rfl
  rw [hbegun] at hruns
  rw [run, run, hruns]
  rfl

end

end Benchmark

end AccessBench
