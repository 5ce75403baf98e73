import AccessBench.Proofs.Benchmark.Feed
import AccessBench.Proofs.Pattern.Fit
import AccessBench.Proofs.Report.Event

/-!
The repetitions of a run: which scenarios it runs, with which patterns and from which surroundings.
The rows of a run are the results of its repetitions, one after the other.
-/

namespace AccessBench

variable {σ : Type}

/-- A scenario that is run, with the pattern that has been made for it and the surroundings that its
first trial begins in. -/
structure Repetition (σ : Type) where
  rig : Rig σ
  scenario : Scenario
  pattern : AccessPattern
  world : σ

/-- What follows an action that ended well. -/
def whenDone {ρ α : Type} (ended : Except Stop Unit × ρ) (rest : ρ → List α) : List α :=
  match ended with
  | (.ok (), r) => rest r
  | (.error _, _) => []

namespace Benchmark

variable (host : Host σ) (b : Benchmark)

def resultOf (rep : Repetition σ) : Except Stop (Row × List String) × σ :=
  (rep.rig.repeatTrials host.space b.config.iterations rep.scenario rep.pattern).perform rep.world

def rowOf? (rep : Repetition σ) : Option Row :=
  match (b.resultOf host rep).1 with
  | .ok (row, _) => some row
  | .error _ => none

def scenarioRepetitions (rig : Rig σ) : PermutationCache → List Scenario → σ → List (Repetition σ)
  | _, [], _ => []
  | cache, s :: rest, w =>
    match s.units with
    | .error _ => []
    | .ok units =>
      match s.kind.materialize host.canIndex units b.config.randomSeed cache with
      | (.error _, _) => []
      | (.ok pattern, kept) =>
        match b.resultOf host ⟨rig, s, pattern, w⟩ with
        | (.ok _, v) => ⟨rig, s, pattern, w⟩ :: scenarioRepetitions rig kept rest v
        | (.error _, _) => [⟨rig, s, pattern, w⟩]

def runSection (rig : Rig σ) (s : Section) : Action (Run σ (List Event)) Unit := do
  Run.emit Sink.recorder (.entered s.title s.suite)
  b.runScenarios host Sink.recorder rig s.title none s.scenarios

def matrixRepetitions (rig : Rig σ) : Matrix → Run σ (List Event) → List (Repetition σ)
  | [], _ => []
  | s :: rest, r =>
    b.scenarioRepetitions host rig none s.scenarios r.world ++
      whenDone ((b.runSection host rig s).perform r) (matrixRepetitions rig rest)

def recorded (event : Event) (r : Run σ (List Event)) : Run σ (List Event) :=
  ((Run.emit Sink.recorder event).perform r).2

def memoryRepetitions (r : Run σ (List Event)) : List (Repetition σ) :=
  b.matrixRepetitions host host.memoryRig b.config.memory.matrix (recorded b.memoryOpening r)

def overFileRepetitions (cache : CacheControl) (fixture : FixtureFile) (r : Run σ (List Event)) :
    List (Repetition σ) :=
  match b.config.file.matrix fixture.length with
  | .error _ => []
  | .ok m => b.matrixRepetitions host (host.fileRig fixture.path cache) m r

def fileRepetitions (r : Run σ (List Event)) : List (Repetition σ) :=
  match b.prepareFixture host r.world with
  | (.error _, _) => []
  | (.ok fixture, v) =>
    b.overFileRepetitions host (b.cacheControl host r.world) fixture
      { recorded (b.fileOpening (b.cacheControl host r.world)) r with world := v }

/-- All repetitions of a run, in order. -/
def repetitions (suites : Suites) (w : σ) : List (Repetition σ) :=
  let begun : Run σ (List Event) := { world := w, sink := [] }
  match suites with
  | .all =>
    b.memoryRepetitions host begun ++
      whenDone ((b.runMemory host Sink.recorder).perform begun) (b.fileRepetitions host)
  | .memory => b.memoryRepetitions host begun
  | .file => b.fileRepetitions host begun

end Benchmark

/-- The rows that an action records are those of the repetitions. -/
def RowsFrom (host : Host σ) (b : Benchmark) (action : Action (Run σ (List Event)) Unit)
    (r : Run σ (List Event)) (reps : List (Repetition σ)) : Prop :=
  ∃ events, (action.perform r).2.sink = r.sink ++ events ∧
    events.filterMap Event.row? = reps.filterMap (b.rowOf? host)

namespace RowsFrom

variable {host : Host σ} {b : Benchmark} {action : Action (Run σ (List Event)) Unit}
  {r : Run σ (List Event)} {reps : List (Repetition σ)}

theorem emit {event : Event} (h : event.row? = none) :
    RowsFrom host b (Run.emit Sink.recorder event) r [] :=
  ⟨[event], rfl, by simp [h]⟩

theorem bind {next : Unit → Action (Run σ (List Event)) Unit}
    {rest : Run σ (List Event) → List (Repetition σ)} (h : RowsFrom host b action r reps)
    (hnext : ∀ v, RowsFrom host b (next ()) v (rest v)) :
    RowsFrom host b (action >>= next) r (reps ++ whenDone (action.perform r) rest) := by
  obtain ⟨events, hsink, hrows⟩ := h
  rw [RowsFrom, Action.perform_bind]
  match action.perform r, hsink with
  | (.error stop, v), hsink => exact ⟨events, hsink, by simp [whenDone, hrows]⟩
  | (.ok (), v), hsink =>
    obtain ⟨more, hmoreSink, hmoreRows⟩ := hnext v
    refine ⟨events ++ more, ?_, ?_⟩
    · rw [hmoreSink, hsink, List.append_assoc]
    · rw [List.filterMap_append, hrows, hmoreRows, whenDone, List.filterMap_append]

theorem emit_bind {event : Event} {next : Unit → Action (Run σ (List Event)) Unit}
    (h : event.row? = none) (hnext : RowsFrom host b (next ()) (Benchmark.recorded event r) reps) :
    RowsFrom host b (Run.emit Sink.recorder event >>= next) r reps := by
  obtain ⟨events, hsink, hrows⟩ := hnext
  refine ⟨event :: events, hsink.trans ?_, ?_⟩
  · have hrecorded : (Benchmark.recorded event r).sink = r.sink ++ [event] := rfl
    rw [hrecorded, List.append_assoc, List.singleton_append]
  · rw [List.filterMap_cons_none h, hrows]

/-- The end of a run records no row. -/
theorem bind_plain {next : Unit → Action (Run σ (List Event)) Unit}
    (h : RowsFrom host b action r reps) (hnext : ∀ v, RowsFrom host b (next ()) v []) :
    RowsFrom host b (action >>= next) r reps := by
  have hall := h.bind hnext
  have hnone : whenDone (action.perform r) (fun _ => ([] : List (Repetition σ))) = [] := by
    match action.perform r with
    | (.ok (), _) | (.error _, _) => rfl
  rw [hnone, List.append_nil] at hall
  exact hall

theorem noted (lines : List String) (message : String) :
    RowsFrom host b (do
      Action.update fun r => ((), r.print lines)
      Run.emit Sink.recorder (.noted message)
      Action.update fun r => ((), r.countSkipped)) r [] :=
  ⟨[.noted message], rfl, rfl⟩

end RowsFrom

namespace Benchmark

variable {host : Host σ} {b : Benchmark} {rig : Rig σ}

theorem runSuites_all {τ : Type} (sink : Sink τ) :
    b.runSuites host sink .all = (do
      b.runMemory host sink
      b.runFile host sink
      Run.emit sink (.finished completionBanner)) := rfl

theorem runSuites_memory {τ : Type} (sink : Sink τ) :
    b.runSuites host sink .memory = (do
      b.runMemory host sink
      Run.emit sink (.finished completionBanner)) := rfl

theorem runSuites_file {τ : Type} (sink : Sink τ) :
    b.runSuites host sink .file = (do
      b.runFile host sink
      Run.emit sink (.finished completionBanner)) := rfl

theorem perform_runScenarios_of_row (title : String) {s : Scenario} (rest : List Scenario)
    {cache kept : PermutationCache} {pattern : AccessPattern} {r : Run σ (List Event)} {row : Row}
    {lines : List String} {v : σ} (hunit : s.unit ≠ 0)
    (hpattern : s.kind.materialize host.canIndex (unitsToCover s.size.toNat s.unit.toNat)
      b.config.randomSeed cache = (.ok pattern, kept))
    (hrow : b.resultOf host ⟨rig, s, pattern, r.world⟩ = (.ok (row, lines), v)) :
    ∃ r', (b.runScenarios host Sink.recorder rig title cache (s :: rest)).perform r =
        (b.runScenarios host Sink.recorder rig title kept rest).perform r' ∧
      r'.world = v ∧ r'.sink = r.sink ++ [.measured row] ∧
      r'.summary = (r.countRow row).summary := by
  rw [resultOf] at hrow
  rw [runScenarios, Action.perform_bind, Action.perform_ofHalting,
    Scenario.units_of_unit_ne_zero hunit]
  simp only [Action.mapError_ok, hpattern]
  rw [Action.perform_bind, perform_measureScenario, hrow]
  exact ⟨_, rfl, rfl, rfl, rfl⟩

theorem perform_runScenarios_of_stop (title : String) {s : Scenario} (rest : List Scenario)
    {cache kept : PermutationCache} {pattern : AccessPattern} {r : Run σ (List Event)}
    {stop : Stop} {v : σ} (hunit : s.unit ≠ 0)
    (hpattern : s.kind.materialize host.canIndex (unitsToCover s.size.toNat s.unit.toNat)
      b.config.randomSeed cache = (.ok pattern, kept))
    (hstop : b.resultOf host ⟨rig, s, pattern, r.world⟩ = (.error stop, v)) :
    (b.runScenarios host Sink.recorder rig title cache (s :: rest)).perform r =
      (.error stop, { r with world := v }) := by
  rw [resultOf] at hstop
  rw [runScenarios, Action.perform_bind, Action.perform_ofHalting,
    Scenario.units_of_unit_ne_zero hunit]
  simp only [Action.mapError_ok, hpattern]
  rw [Action.perform_bind, perform_measureScenario, hstop]

theorem unit_ne_zero_of_units {s : Scenario} {units : Nat} (h : s.units = .ok units) :
    s.unit ≠ 0 ∧ units = unitsToCover s.size.toNat s.unit.toNat :=
  unitCount_eq_ok_iff.mp h

section

variable {s : Scenario} {rest : List Scenario} {cache kept : PermutationCache} {w : σ} {units : Nat}

theorem scenarioRepetitions_of_halt {reason : Halt} (h : s.units = .error reason) :
    b.scenarioRepetitions host rig cache (s :: rest) w = [] := by
  simp [scenarioRepetitions, h]

variable (hunits : s.units = .ok units)

include hunits

theorem scenarioRepetitions_of_refusal {e : BenchError}
    (hpattern : s.kind.materialize host.canIndex units b.config.randomSeed cache =
      (.error e, kept)) :
    b.scenarioRepetitions host rig cache (s :: rest) w = [] := by
  simp [scenarioRepetitions, hunits, hpattern]

variable {pattern : AccessPattern}
  (hpattern : s.kind.materialize host.canIndex units b.config.randomSeed cache =
    (.ok pattern, kept))

include hpattern

theorem scenarioRepetitions_of_stop {stop : Stop} {v : σ}
    (hresult : b.resultOf host ⟨rig, s, pattern, w⟩ = (.error stop, v)) :
    b.scenarioRepetitions host rig cache (s :: rest) w = [⟨rig, s, pattern, w⟩] := by
  simp [scenarioRepetitions, hunits, hpattern, hresult]

theorem scenarioRepetitions_of_row {result : Row × List String} {v : σ}
    (hresult : b.resultOf host ⟨rig, s, pattern, w⟩ = (.ok result, v)) :
    b.scenarioRepetitions host rig cache (s :: rest) w =
      ⟨rig, s, pattern, w⟩ :: b.scenarioRepetitions host rig kept rest v := by
  simp [scenarioRepetitions, hunits, hpattern, hresult]

end

theorem rowsFrom_runScenarios (title : String) (scenarios : List Scenario)
    (cache : PermutationCache) (r : Run σ (List Event)) :
    RowsFrom host b (b.runScenarios host Sink.recorder rig title cache scenarios) r
      (b.scenarioRepetitions host rig cache scenarios r.world) := by
  induction scenarios generalizing cache r with
  | nil => exact ⟨[], by simp [runScenarios], rfl⟩
  | cons s rest ih =>
    cases hunits : s.units with
    | error reason =>
      rw [scenarioRepetitions_of_halt hunits]
      refine ⟨[], ?_, rfl⟩
      rw [runScenarios, Action.perform_bind, Action.perform_ofHalting, hunits]
      simp
    | ok units =>
      obtain ⟨hunit, rfl⟩ := unit_ne_zero_of_units hunits
      rcases hpattern : s.kind.materialize host.canIndex (unitsToCover s.size.toNat s.unit.toNat)
          b.config.randomSeed cache with ⟨e | pattern, kept⟩
      · rw [scenarioRepetitions_of_refusal hunits hpattern]
        have hperform : (b.runScenarios host Sink.recorder rig title cache (s :: rest)).perform r =
            (do
              Action.update fun r => ((), r.print ["Error: " ++ title ++ ": " ++ e.message])
              Run.emit Sink.recorder (.noted e.message)
              Action.update fun r => ((), r.countSkipped) :
              Action (Run σ (List Event)) Unit).perform r := by
          rw [runScenarios, Action.perform_bind, Action.perform_ofHalting, hunits]
          simp only [Action.mapError_ok, hpattern]
        rw [RowsFrom, hperform]
        exact RowsFrom.noted _ e.message
      · rcases hresult : b.resultOf host ⟨rig, s, pattern, r.world⟩ with ⟨stop | ⟨row, lines⟩, v⟩
        · rw [scenarioRepetitions_of_stop hunits hpattern hresult]
          refine ⟨[], ?_, by simp [rowOf?, hresult]⟩
          rw [perform_runScenarios_of_stop title rest hunit hpattern hresult, List.append_nil]
        · rw [scenarioRepetitions_of_row hunits hpattern hresult]
          obtain ⟨r', hperform, rfl, hsink, -⟩ :=
            perform_runScenarios_of_row title rest hunit hpattern hresult
          obtain ⟨events, hevents, hrows⟩ := ih kept r'
          refine ⟨.measured row :: events, ?_, ?_⟩
          · rw [hperform, hevents, hsink, List.append_assoc, List.singleton_append]
          · simp [hresult, rowOf?, Event.row?, hrows]

theorem runMatrix_cons (s : Section) (rest : Matrix) :
    b.runMatrix host Sink.recorder rig (s :: rest) =
      (b.runSection host rig s >>= fun _ => b.runMatrix host Sink.recorder rig rest) := by
  rw [runMatrix, runSection, bind_assoc]

theorem rowsFrom_runMatrix (m : Matrix) (r : Run σ (List Event)) :
    RowsFrom host b (b.runMatrix host Sink.recorder rig m) r (b.matrixRepetitions host rig m r) := by
  induction m generalizing r with
  | nil => exact ⟨[], by simp [runMatrix], rfl⟩
  | cons s rest ih =>
    have hsection : RowsFrom host b (b.runSection host rig s) r
        (b.scenarioRepetitions host rig none s.scenarios r.world) :=
      .emit_bind rfl (rowsFrom_runScenarios s.title s.scenarios none _)
    rw [runMatrix_cons]
    exact hsection.bind ih

theorem rowsFrom_runMemory (r : Run σ (List Event)) :
    RowsFrom host b (b.runMemory host Sink.recorder) r (b.memoryRepetitions host r) :=
  .emit_bind rfl (rowsFrom_runMatrix b.config.memory.matrix _)

theorem perform_runFile (r : Run σ (List Event)) {made : Except BenchError FixtureFile} {v : σ}
    (h : b.prepareFixture host r.world = (made, v)) :
    (b.runFile host Sink.recorder).perform r =
      (made.casesOn (skipFile Sink.recorder)
        (b.runOverFixture host Sink.recorder (b.cacheControl host r.world)) :
          Action (Run σ (List Event)) Unit).perform
          { recorded (b.fileOpening (b.cacheControl host r.world)) r with world := v } := by
  have hemit : (Run.emit Sink.recorder (b.fileOpening (b.cacheControl host r.world))).perform r =
      (.ok (), recorded (b.fileOpening (b.cacheControl host r.world)) r) := rfl
  have hworld : (recorded (b.fileOpening (b.cacheControl host r.world)) r).world = r.world := rfl
  rw [runFile, Action.perform_bind, Action.perform_update]
  dsimp only
  rw [Action.perform_bind, hemit]
  dsimp only
  rw [Action.perform_bind, Action.perform_update]
  dsimp only
  rw [hworld, h]
  cases made <;> rfl

theorem rowsFrom_runOverFixture (cache : CacheControl) (fixture : FixtureFile)
    (r : Run σ (List Event)) :
    RowsFrom host b (b.runOverFixture host Sink.recorder cache fixture) r
      (b.overFileRepetitions host cache fixture r) := by
  rw [RowsFrom, runOverFixture, Action.perform_unwinding_world, runFileMatrix, Action.perform_bind,
    Action.perform_ofHalting, overFileRepetitions]
  cases b.config.file.matrix fixture.length with
  | error reason => exact ⟨[], (List.append_nil _).symm, rfl⟩
  | ok m => exact rowsFrom_runMatrix m r

theorem rowsFrom_runFile (r : Run σ (List Event)) :
    RowsFrom host b (b.runFile host Sink.recorder) r (b.fileRepetitions host r) := by
  have hsink : (recorded (b.fileOpening (b.cacheControl host r.world)) r).sink =
      r.sink ++ [b.fileOpening (b.cacheControl host r.world)] := rfl
  rcases hmade : b.prepareFixture host r.world with ⟨e | fixture, v⟩
  · rw [RowsFrom, perform_runFile r hmade, fileRepetitions, hmade]
    obtain ⟨events, hevents, hrows⟩ : RowsFrom host b (skipFile Sink.recorder e)
        { recorded (b.fileOpening (b.cacheControl host r.world)) r with world := v } [] :=
      RowsFrom.noted _ _
    refine ⟨b.fileOpening (b.cacheControl host r.world) :: events, hevents.trans ?_, hrows⟩
    rw [hsink, List.append_assoc, List.singleton_append]
  · rw [RowsFrom, perform_runFile r hmade, fileRepetitions, hmade]
    obtain ⟨events, hevents, hrows⟩ : RowsFrom host b
        (b.runOverFixture host Sink.recorder (b.cacheControl host r.world) fixture)
        { recorded (b.fileOpening (b.cacheControl host r.world)) r with world := v } _ :=
      rowsFrom_runOverFixture (b.cacheControl host r.world) fixture _
    refine ⟨b.fileOpening (b.cacheControl host r.world) :: events, hevents.trans ?_, hrows⟩
    rw [hsink, List.append_assoc, List.singleton_append]

/-- The rows of a run are the results of its repetitions, in order. -/
theorem rows_eq (host : Host σ) (b : Benchmark) (suites : Suites) (w : σ) :
    (b.events host suites w).filterMap Event.row? =
      (b.repetitions host suites w).filterMap (b.rowOf? host) := by
  have hfinish : ∀ v : Run σ (List Event),
      RowsFrom host b (Run.emit Sink.recorder (.finished completionBanner)) v [] :=
    fun _ => .emit rfl
  have hruns : RowsFrom host b (b.runSuites host Sink.recorder suites) { world := w, sink := [] }
      (b.repetitions host suites w) := by
    cases suites with
    | all =>
      have hassoc : b.runSuites host Sink.recorder .all =
          ((b.runMemory host Sink.recorder >>= fun _ => b.runFile host Sink.recorder) >>=
            fun _ => Run.emit Sink.recorder (.finished completionBanner)) := by
        rw [runSuites_all, bind_assoc]
      rw [hassoc]
      exact ((rowsFrom_runMemory _).bind rowsFrom_runFile).bind_plain hfinish
    | memory =>
      rw [runSuites_memory]
      exact (rowsFrom_runMemory _).bind_plain hfinish
    | file =>
      rw [runSuites_file]
      exact (rowsFrom_runFile _).bind_plain hfinish
  obtain ⟨events, hsink, hrows⟩ := hruns
  have hevents : b.events host suites w = events := hsink
  rw [hevents, hrows]

/-- A scenario of a matrix is repeated on the rig of the matrix, with a pattern that fits it. -/
def IsOver (rig : Rig σ) (m : Matrix) (rep : Repetition σ) : Prop :=
  rep.rig = rig ∧ (∃ s ∈ m, rep.scenario ∈ s.scenarios) ∧ rep.scenario.unit ≠ 0 ∧
    rep.pattern.Fits (unitsToCover rep.scenario.size.toNat rep.scenario.unit.toNat)

theorem of_mem_scenarioRepetitions {scenarios : List Scenario} {cache : PermutationCache} {w : σ}
    {rep : Repetition σ} (hcache : cache.Bounded)
    (h : rep ∈ b.scenarioRepetitions host rig cache scenarios w) :
    rep.rig = rig ∧ rep.scenario ∈ scenarios ∧ rep.scenario.unit ≠ 0 ∧
      rep.pattern.Fits (unitsToCover rep.scenario.size.toNat rep.scenario.unit.toNat) := by
  -- each scenario leaves a bounded permutation for the next one
  induction scenarios generalizing cache w with
  | nil => cases h
  | cons s rest ih =>
    cases hunits : s.units with
    | error reason =>
      rw [scenarioRepetitions_of_halt hunits] at h
      cases h
    | ok units =>
      obtain ⟨hunit, rfl⟩ := unit_ne_zero_of_units hunits
      have hkept : PermutationCache.Bounded (s.kind.materialize host.canIndex
          (unitsToCover s.size.toNat s.unit.toNat) b.config.randomSeed cache).2 :=
        s.kind.materialize_bounded hcache
      match hpattern : s.kind.materialize host.canIndex (unitsToCover s.size.toNat s.unit.toNat)
          b.config.randomSeed cache with
      | (.error e, kept) =>
        rw [scenarioRepetitions_of_refusal hunits hpattern] at h
        cases h
      | (.ok pattern, kept) =>
        rw [hpattern] at hkept
        have hfits := PatternKind.fits_of_materialize hcache hpattern
        have hhead : (⟨rig, s, pattern, w⟩ : Repetition σ).rig = rig ∧ s ∈ s :: rest ∧
            s.unit ≠ 0 ∧ pattern.Fits (unitsToCover s.size.toNat s.unit.toNat) :=
          ⟨rfl, List.mem_cons_self, hunit, hfits⟩
        match hresult : b.resultOf host ⟨rig, s, pattern, w⟩ with
        | (.error stop, v) =>
          rw [scenarioRepetitions_of_stop hunits hpattern hresult] at h
          obtain rfl := List.mem_singleton.mp h
          exact hhead
        | (.ok result, v) =>
          rw [scenarioRepetitions_of_row hunits hpattern hresult] at h
          obtain rfl | hrest := List.mem_cons.mp h
          · exact hhead
          · obtain ⟨hrig, hmem, hrestUnit⟩ := ih hkept hrest
            exact ⟨hrig, List.mem_cons_of_mem s hmem, hrestUnit⟩

theorem of_mem_matrixRepetitions {m : Matrix} {r : Run σ (List Event)} {rep : Repetition σ}
    (h : rep ∈ b.matrixRepetitions host rig m r) : IsOver rig m rep := by
  have hnone : PermutationCache.Bounded none := by
    intro indices hindices
    cases hindices
  induction m generalizing r with
  | nil => cases h
  | cons s rest ih =>
    rw [matrixRepetitions] at h
    obtain hhead | hrest := List.mem_append.mp h
    · obtain ⟨hrig, hmem, hunit⟩ := of_mem_scenarioRepetitions hnone hhead
      exact ⟨hrig, ⟨s, List.mem_cons_self, hmem⟩, hunit⟩
    · match (b.runSection host rig s).perform r, hrest with
      | (.ok (), v), hrest =>
        obtain ⟨hrig, ⟨s', hs', hmem⟩, hunit⟩ := ih hrest
        exact ⟨hrig, ⟨s', List.mem_cons_of_mem s hs', hmem⟩, hunit⟩

/-- A repetition over a file is one of the sections over some fixture. -/
def IsOverFile (host : Host σ) (b : Benchmark) (rep : Repetition σ) : Prop :=
  ∃ path cache length m, b.config.file.matrix length = .ok m ∧
    IsOver (host.fileRig path cache) m rep

theorem of_mem_fileRepetitions {r : Run σ (List Event)} {rep : Repetition σ}
    (h : rep ∈ b.fileRepetitions host r) : b.IsOverFile host rep := by
  rw [fileRepetitions] at h
  match b.prepareFixture host r.world, h with
  | (.ok fixture, v), h =>
    simp only [overFileRepetitions] at h
    cases hm : b.config.file.matrix fixture.length with
    | error reason =>
      rw [hm] at h
      cases h
    | ok m =>
      rw [hm] at h
      exact ⟨_, _, _, m, hm, of_mem_matrixRepetitions h⟩

theorem of_mem_repetitions {suites : Suites} {w : σ} {rep : Repetition σ}
    (h : rep ∈ b.repetitions host suites w) :
    IsOver host.memoryRig b.config.memory.matrix rep ∨ b.IsOverFile host rep := by
  cases suites with
  | all =>
    obtain hmemory | hfile := List.mem_append.mp h
    · exact .inl (of_mem_matrixRepetitions hmemory)
    · match (b.runMemory host Sink.recorder).perform { world := w, sink := [] }, hfile with
      | (.ok (), v), hfile => exact .inr (of_mem_fileRepetitions hfile)
  | memory => exact .inl (of_mem_matrixRepetitions h)
  | file => exact .inr (of_mem_fileRepetitions h)

end Benchmark

end AccessBench
