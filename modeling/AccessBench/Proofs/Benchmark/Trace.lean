import AccessBench.Proofs.Benchmark.Repetitions
import AccessBench.Proofs.Scenario.Matrix
import AccessBench.Proofs.Trial.Totality
import Mathlib.Data.List.Forall2

/-!
The trace of a run: what it hands to its sink, event by event, and the counts that it keeps. The
trace follows the parts of the run, the sections of their matrices and the scenarios of a section.
It is whole exactly when every repetition settles; otherwise the run halts on the way.
-/

namespace AccessBench

def Summary.ofEvents (events : List Event) : Summary where
  rows := (events.filterMap Event.row?).length
  failed := (events.filterMap Event.row?).countP (·.failed)
  skipped := events.countP Event.isNote

namespace Summary

theorem ofEvents_of_plain {events : List Event} {event : Event} (hrow : event.row? = none)
    (hnote : event.isNote = false) : ofEvents (events ++ [event]) = ofEvents events := by
  simp [ofEvents, List.filterMap_append, hrow, hnote]

theorem ofEvents_noted (events : List Event) (message : String) :
    ofEvents (events ++ [.noted message]) =
      { ofEvents events with skipped := (ofEvents events).skipped + 1 } := by
  simp [ofEvents, List.filterMap_append, Event.row?, Event.isNote]

theorem ofEvents_measured (events : List Event) (row : Row) :
    ofEvents (events ++ [.measured row]) =
      { ofEvents events with
        rows := (ofEvents events).rows + 1
        failed := (ofEvents events).failed + if row.failed then 1 else 0 } := by
  simp [ofEvents, List.filterMap_append, Event.row?, Event.isNote, List.countP_cons]

end Summary

variable {σ τ : Type}

/-- One suite of a run. -/
structure Part (σ : Type) where
  opening : Event
  /-- The sections and what they run on, or why the suite does not come to them. -/
  plan : Except Stop (Rig σ × Matrix)

namespace Benchmark

variable (host : Host σ) (b : Benchmark)

def memoryPart : Part σ where
  opening := b.memoryOpening
  plan := .ok (host.memoryRig, b.config.memory.matrix)

def planOver (cache : CacheControl) (fixture : FixtureFile) : Except Stop (Rig σ × Matrix) :=
  match b.config.file.matrix fixture.length with
  | .error reason => .error (.halted reason)
  | .ok m => .ok (host.fileRig fixture.path cache, m)

def filePart (w : σ) : Part σ where
  opening := b.fileOpening (b.cacheControl host w)
  plan :=
    match (b.prepareFixture host w).1 with
    | .error e => .error (.failed e)
    | .ok fixture => b.planOver host (b.cacheControl host w) fixture

/-- The surroundings that the memory suite leaves behind. -/
def afterMemory (w : σ) : σ := (b.run host Sink.recorder .memory w []).2.world

def parts (suites : Suites) (w : σ) : List (Part σ) :=
  match suites with
  | .all => [b.memoryPart host, b.filePart host (b.afterMemory host w)]
  | .memory => [b.memoryPart host]
  | .file => [b.filePart host w]

/-- A row that a scenario gets on a rig. -/
def Measures (rig : Rig σ) (s : Scenario) (row : Row) : Prop :=
  row.IsOf s rig.metric ∧
    ∃ pattern w lines v, b.resultOf host ⟨rig, s, pattern, w⟩ = (.ok (row, lines), v)

/-- A section is entered and has a row for every scenario before the first that cannot be begun,
which gets a note. -/
def TellsSection (rig : Rig σ) (s : Section) (events : List Event) : Prop :=
  ∃ rows, List.Forall₂ (b.Measures host rig)
      (s.scenarios.takeWhile fun scenario => (scenario.refusal? host.canIndex).isNone) rows ∧
    events = .entered s.title s.suite :: (rows.map .measured ++
      ((s.scenarios.findSome? (·.refusal? host.canIndex)).map fun e => .noted e.message).toList)

/-- All sections follow one another. -/
def TellsMatrix (rig : Rig σ) (m : Matrix) (events : List Event) : Prop :=
  ∃ told, List.Forall₂ (b.TellsSection host rig) m told ∧ events = told.flatten

/-- A suite has its sections, or a note that says why it has none. -/
def TellsPlan (plan : Except Stop (Rig σ × Matrix)) (events : List Event) : Prop :=
  match plan with
  | .error (.failed e) => events = [.noted ("Failed to prepare test file: " ++ e.message)]
  | .error (.halted _) => False
  | .ok (rig, m) => b.TellsMatrix host rig m events

def TellsPart (part : Part σ) (events : List Event) : Prop :=
  ∃ rest, events = part.opening :: rest ∧ b.TellsPlan host part.plan rest

/-- The suites follow one another, and then the report is finished. -/
def TellsRun (suites : Suites) (w : σ) (events : List Event) : Prop :=
  ∃ told, List.Forall₂ (b.TellsPart host) (b.parts host suites w) told ∧
    events = told.flatten ++ [.finished completionBanner]

/-- All of these repetitions end with a row. -/
def Settled (reps : List (Repetition σ)) : Prop :=
  ∀ rep ∈ reps, rep.rig.Settles host.space b.config.iterations rep.scenario rep.pattern rep.world

/-- Nothing halts the run: no distance of a stride is too large to be named, and each repetition has
room for its trials, none of which halts, and adds them up. -/
structure Completes (suites : Suites) (w : σ) : Prop where
  planned : ∀ part ∈ b.parts host suites w, ∀ reason, part.plan ≠ .error (.halted reason)
  settled : b.Settled host (b.repetitions host suites w)

end Benchmark

/-- From a run whose counts are those of what is recorded. Under the condition the action succeeds:
it records events with the property and keeps the counts in step with them. Otherwise it halts. -/
def Tells (done : Prop) (P : List Event → Prop) (action : Action (Run σ (List Event)) Unit)
    (r : Run σ (List Event)) : Prop :=
  r.summary = Summary.ofEvents r.sink →
    (done → ∃ events, P events ∧ (action.perform r).1 = .ok () ∧
      (action.perform r).2.sink = r.sink ++ events ∧
      (action.perform r).2.summary = Summary.ofEvents (r.sink ++ events)) ∧
    (¬ done → ∃ reason, (action.perform r).1 = .error (.halted reason))

namespace Tells

variable {c d done : Prop} {P Q : List Event → Prop}
  {action action' : Action (Run σ (List Event)) Unit} {r r' : Run σ (List Event)}

theorem mono (h : Tells c P action r) (hpq : ∀ events, P events → Q events) :
    Tells c Q action r := by
  intro hstep
  obtain ⟨hdone, hhalted⟩ := h hstep
  refine ⟨?_, hhalted⟩
  intro hc
  obtain ⟨events, hp, hend⟩ := hdone hc
  exact ⟨events, hpq events hp, hend⟩

theorem congr (h : Tells c P action r) (hiff : c ↔ d) : Tells d P action r := by
  intro hstep
  rw [← hiff]
  exact h hstep

theorem pure (hdone : done) (h : P []) : Tells done P (Pure.pure ()) r := by
  intro hstep
  refine ⟨?_, fun hnot => absurd hdone hnot⟩
  intro _
  refine ⟨[], h, rfl, by simp, ?_⟩
  rw [List.append_nil]
  exact hstep

/-- Two actions in a row. Whether the second one gets its turn is up to the first. -/
theorem bind {next : Unit → Action (Run σ (List Event)) Unit} (h : Tells c P action r)
    (hnext : Tells d Q (next ()) (action.perform r).2) (hfirst : done → c)
    (hrest : c → (action.perform r).1 = .ok () → (done ↔ d)) :
    Tells done (fun events => ∃ before after, P before ∧ Q after ∧ events = before ++ after)
      (action >>= next) r := by
  intro hstep
  obtain ⟨hdone, hhalted⟩ := h hstep
  by_cases hc : c
  · obtain ⟨before, hp, hok, hsink, hsummary⟩ := hdone hc
    obtain ⟨hnextDone, hnextHalted⟩ := hnext (by rw [hsink]; exact hsummary)
    have hbind : (action >>= next).perform r = (next ()).perform (action.perform r).2 := by
      rw [Action.perform_bind]
      match action.perform r, hok with
      | (.ok (), _), _ => rfl
    rw [hbind, hrest hc hok]
    refine ⟨?_, hnextHalted⟩
    intro hd
    obtain ⟨after, hq, hokNext, hsinkNext, hsummaryNext⟩ := hnextDone hd
    refine ⟨before ++ after, ⟨before, after, hp, hq, rfl⟩, hokNext, ?_, ?_⟩
    · rw [hsinkNext, hsink, List.append_assoc]
    · rw [hsummaryNext, hsink, List.append_assoc]
  · refine ⟨fun hd => absurd (hfirst hd) hc, ?_⟩
    intro _
    obtain ⟨reason, hhalt⟩ := hhalted hc
    exact ⟨reason, by rw [Action.fst_perform_bind, hhalt]⟩

theorem unwinding (h : Tells c P action r) (cleanup : σ → σ) :
    Tells c P (action.unwinding fun r => { r with world := cleanup r.world }) r := by
  rw [Tells, Action.perform_unwinding_world]
  exact h

/-- An event that is not counted comes first. -/
theorem opened {event : Event} (h : Tells c P action' r') (hrow : event.row? = none)
    (hnote : event.isNote = false) (hsink : r'.sink = r.sink ++ [event])
    (hsummary : r'.summary = r.summary) (hperform : action.perform r = action'.perform r') :
    Tells c (fun events => ∃ rest, events = event :: rest ∧ P rest) action r := by
  intro hstep
  have hstep' : r'.summary = Summary.ofEvents r'.sink := by
    rw [hsummary, hsink, Summary.ofEvents_of_plain hrow hnote]
    exact hstep
  obtain ⟨hdone, hhalted⟩ := h hstep'
  rw [hperform]
  refine ⟨?_, hhalted⟩
  intro hc
  obtain ⟨rest, hp, hok, hsinkEnd, hsummaryEnd⟩ := hdone hc
  refine ⟨event :: rest, ⟨rest, rfl, hp⟩, hok, ?_, ?_⟩
  · rw [hsinkEnd, hsink, List.append_assoc, List.singleton_append]
  · rw [hsummaryEnd, hsink, List.append_assoc, List.singleton_append]

theorem emit {event : Event} (hdone : done) (hrow : event.row? = none)
    (hnote : event.isNote = false) :
    Tells done (fun events => events = [event]) (Run.emit Sink.recorder event) r := by
  intro hstep
  refine ⟨?_, fun hnot => absurd hdone hnot⟩
  intro _
  refine ⟨[event], rfl, rfl, rfl, ?_⟩
  rw [Summary.ofEvents_of_plain hrow hnote]
  exact hstep

theorem thenFinished (h : Tells c P action r) :
    Tells c (fun events => ∃ before, P before ∧ events = before ++ [.finished completionBanner])
      (action >>= fun _ => Run.emit Sink.recorder (.finished completionBanner)) r := by
  have hfinished : Tells True (fun events => events = [.finished completionBanner])
      (Run.emit Sink.recorder (.finished completionBanner)) (action.perform r).2 :=
    .emit trivial rfl rfl
  apply (h.bind hfinished id fun hc _ => iff_true_intro hc).mono
  rintro events ⟨before, _, hp, rfl, rfl⟩
  exact ⟨before, hp, rfl⟩

theorem noted (hdone : done) (lines : List String) (message : String) :
    Tells done (fun events => events = [.noted message])
      (do
        Action.update fun r => ((), r.print lines)
        Run.emit Sink.recorder (.noted message)
        Action.update fun r => ((), r.countSkipped)) r := by
  intro hstep
  refine ⟨?_, fun hnot => absurd hdone hnot⟩
  intro _
  -- the note is counted only after the sink has taken it
  refine ⟨[.noted message], rfl, rfl, rfl, ?_⟩
  rw [Summary.ofEvents_noted, ← hstep]
  rfl

end Tells

namespace Benchmark

variable {host : Host σ} {b : Benchmark} {rig : Rig σ}

theorem settled_nil : b.Settled host [] := by
  intro rep hrep
  cases hrep

theorem settled_append {reps more : List (Repetition σ)} :
    b.Settled host (reps ++ more) ↔ b.Settled host reps ∧ b.Settled host more :=
  List.forall_mem_append

/-- The repetitions of two actions in a row settle when those of both do. -/
theorem Tells.bind_settled {P Q : List Event → Prop} {action : Action (Run σ (List Event)) Unit}
    {next : Unit → Action (Run σ (List Event)) Unit} {r : Run σ (List Event)}
    {reps : List (Repetition σ)} {rest : Run σ (List Event) → List (Repetition σ)}
    (h : Tells (b.Settled host reps) P action r)
    (hnext : ∀ v, Tells (b.Settled host (rest v)) Q (next ()) v) :
    Tells (b.Settled host (reps ++ whenDone (action.perform r) rest))
      (fun events => ∃ before after, P before ∧ Q after ∧ events = before ++ after)
      (action >>= next) r := by
  refine h.bind (hnext _) (fun hall => (settled_append.mp hall).1) ?_
  intro hreps hok
  have hwhen : whenDone (action.perform r) rest = rest (action.perform r).2 := by
    match action.perform r, hok with
    | (.ok (), _), _ => rfl
  rw [settled_append, hwhen]
  exact and_iff_right hreps

theorem runScenarios_of_refusal (title : String) {s : Scenario} (rest : List Scenario)
    {cache : PermutationCache} {e : BenchError} (hunit : s.unit ≠ 0)
    (hcache : cache.Sound host.canIndex) (hrefusal : s.refusal? host.canIndex = some e) :
    b.runScenarios host Sink.recorder rig title cache (s :: rest) = (do
      Action.update fun r => ((), r.print ["Error: " ++ title ++ ": " ++ e.message])
      Run.emit Sink.recorder (.noted e.message)
      Action.update fun r => ((), r.countSkipped)) := by
  have hpattern := PatternKind.materialize_of_refusal b.config.randomSeed hcache hrefusal
  rw [runScenarios, Scenario.units_of_unit_ne_zero hunit]
  funext r
  change ((Action.ofHalting (.ok _) : Action (Run σ (List Event)) Nat) >>= _).perform r = _
  rw [Action.perform_bind, Action.perform_ofHalting]
  simp only [Action.mapError_ok, hpattern]
  rfl

/-- A section goes on after a row and ends with its first note, or halts where a repetition does not
settle. -/
theorem tells_runScenarios (title : String) {scenarios : List Scenario}
    (hunits : ∀ s ∈ scenarios, s.unit ≠ 0) {cache : PermutationCache}
    (hcache : cache.Sound host.canIndex) (r : Run σ (List Event)) :
    Tells (b.Settled host (b.scenarioRepetitions host rig cache scenarios r.world))
      (fun events => ∃ rows,
        List.Forall₂ (b.Measures host rig)
          (scenarios.takeWhile fun s => (s.refusal? host.canIndex).isNone) rows ∧
        events = rows.map .measured ++
          ((scenarios.findSome? (·.refusal? host.canIndex)).map fun e => .noted e.message).toList)
      (b.runScenarios host Sink.recorder rig title cache scenarios) r := by
  -- sound caches and counts in step are what one scenario hands on to the next
  induction scenarios generalizing cache r with
  | nil => exact .pure settled_nil ⟨[], .nil, rfl⟩
  | cons s rest ih =>
    obtain ⟨hunit, hrest⟩ := List.forall_mem_cons.mp hunits
    have hcount := Scenario.units_of_unit_ne_zero hunit
    cases hrefusal : s.refusal? host.canIndex with
    | some e =>
      have hnone : b.scenarioRepetitions host rig cache (s :: rest) r.world = [] :=
        scenarioRepetitions_of_refusal hcount
          (PatternKind.materialize_of_refusal b.config.randomSeed hcache hrefusal)
      rw [runScenarios_of_refusal title rest hunit hcache hrefusal, hnone]
      apply (Tells.noted settled_nil _ e.message).mono
      intro events heq
      subst heq
      exact ⟨[], by simp [hrefusal], by simp [hrefusal]⟩
    | none =>
      obtain ⟨pattern, kept, hpattern, hkept⟩ :=
        PatternKind.materialize_of_no_refusal b.config.randomSeed hcache hrefusal
      by_cases hsettles : rig.Settles host.space b.config.iterations s pattern r.world
      · obtain ⟨row, lines, v, hrow⟩ := hsettles.repeatTrials
        obtain ⟨r', hperform, rfl, hsink, hsummary⟩ :=
          perform_runScenarios_of_row title rest hunit hpattern hrow
        intro hstep
        have hstep' : r'.summary = Summary.ofEvents r'.sink := by
          rw [hsummary, hsink, Summary.ofEvents_measured, ← hstep]
          rfl
        obtain ⟨hdone, hhalted⟩ := ih hrest hkept r' hstep'
        rw [hperform, scenarioRepetitions_of_row hcount hpattern hrow, Settled,
          List.forall_mem_cons]
        refine ⟨?_, fun hnot => hhalted fun hall => hnot ⟨hsettles, hall⟩⟩
        intro hall
        obtain ⟨events, ⟨rows, hrows, rfl⟩, hok, hsinkEnd, hsummaryEnd⟩ := hdone hall.2
        refine ⟨_, ⟨row :: rows, ?_, rfl⟩, hok, ?_, ?_⟩
        · rw [List.takeWhile_cons_of_pos (by simp [hrefusal])]
          exact .cons ⟨Rig.isOf_of_repeatTrials hrow, pattern, r.world, lines, r'.world, hrow⟩ hrows
        · rw [hsinkEnd, hsink]
          simp [hrefusal]
        · rw [hsummaryEnd, hsink]
          simp [hrefusal]
      · obtain ⟨reason, v, hhalt⟩ := Rig.repeatTrials_of_not_settles hsettles
        intro _
        rw [scenarioRepetitions_of_stop hcount hpattern hhalt,
          perform_runScenarios_of_stop title rest hunit hpattern hhalt]
        refine ⟨fun hall => absurd (hall _ (List.mem_singleton_self _)) hsettles, ?_⟩
        exact fun _ => ⟨reason, rfl⟩

theorem tells_runSection {s : Section} (hunits : ∀ scenario ∈ s.scenarios, scenario.unit ≠ 0)
    (r : Run σ (List Event)) :
    Tells (b.Settled host (b.scenarioRepetitions host rig none s.scenarios r.world))
      (b.TellsSection host rig s) (b.runSection host rig s) r := by
  have hscenarios : Tells _ _ (b.runScenarios host Sink.recorder rig s.title none s.scenarios) _ :=
    tells_runScenarios s.title hunits (PermutationCache.sound_none host.canIndex)
      (recorded (.entered s.title s.suite) r)
  apply (hscenarios.opened rfl rfl rfl rfl rfl).mono
  rintro events ⟨rest, rfl, rows, hrows, rfl⟩
  exact ⟨rows, hrows, rfl⟩

theorem tells_runMatrix {m : Matrix} (hunits : ∀ s ∈ m, ∀ scenario ∈ s.scenarios, scenario.unit ≠ 0)
    (r : Run σ (List Event)) :
    Tells (b.Settled host (b.matrixRepetitions host rig m r)) (b.TellsMatrix host rig m)
      (b.runMatrix host Sink.recorder rig m) r := by
  induction m generalizing r with
  | nil => exact .pure settled_nil ⟨[], .nil, rfl⟩
  | cons s rest ih =>
    obtain ⟨hhead, hrest⟩ := List.forall_mem_cons.mp hunits
    rw [runMatrix_cons, matrixRepetitions]
    apply (Tells.bind_settled (tells_runSection hhead r) (ih hrest)).mono
    rintro events ⟨before, after, hbefore, ⟨told, htold, rfl⟩, rfl⟩
    exact ⟨before :: told, .cons hbefore htold, rfl⟩

theorem tells_runMemory (hpage : b.config.memory.pageSize ≠ 0) (r : Run σ (List Event)) :
    Tells (b.Settled host (b.memoryRepetitions host r)) (b.TellsPart host (b.memoryPart host))
      (b.runMemory host Sink.recorder) r :=
  (tells_runMatrix (MemoryConfig.unit_ne_zero hpage) (recorded b.memoryOpening r)).opened
    rfl rfl rfl rfl rfl

theorem tells_runOverFixture (hblock : b.config.file.blockSize ≠ 0) (cache : CacheControl)
    (fixture : FixtureFile) (r : Run σ (List Event)) :
    Tells ((∀ reason, b.planOver host cache fixture ≠ .error (.halted reason)) ∧
        b.Settled host (b.overFileRepetitions host cache fixture r))
      (b.TellsPlan host (b.planOver host cache fixture))
      (b.runOverFixture host Sink.recorder cache fixture) r := by
  rw [runOverFixture]
  apply Tells.unwinding
  rw [Tells, runFileMatrix, Action.perform_bind, Action.perform_ofHalting, planOver,
    overFileRepetitions]
  cases hm : b.config.file.matrix fixture.length with
  | error reason =>
    intro _
    exact ⟨fun hall => absurd rfl (hall.1 reason), fun _ => ⟨reason, rfl⟩⟩
  | ok m =>
    have hmatrix : Tells _ _
        (b.runMatrix host Sink.recorder (host.fileRig fixture.path cache) m) r :=
      tells_runMatrix (FileConfig.unit_ne_zero hm hblock) r
    refine hmatrix.congr ?_
    simp

theorem tells_runFile (hblock : b.config.file.blockSize ≠ 0) (r : Run σ (List Event)) :
    Tells ((∀ reason, (b.filePart host r.world).plan ≠ .error (.halted reason)) ∧
        b.Settled host (b.fileRepetitions host r))
      (b.TellsPart host (b.filePart host r.world)) (b.runFile host Sink.recorder) r := by
  rcases hmade : b.prepareFixture host r.world with ⟨e | fixture, v⟩
  · have hplan : (b.filePart host r.world).plan = .error (.failed e) := by simp [filePart, hmade]
    have hnone : b.fileRepetitions host r = [] := by simp [fileRepetitions, hmade]
    rw [hplan, hnone]
    have hdone : (∀ reason, (.error (.failed e) : Except Stop (Rig σ × Matrix)) ≠
        .error (.halted reason)) ∧ b.Settled host [] := ⟨by simp, settled_nil⟩
    have hnoted := Tells.noted hdone ["Error: " ++ ("Failed to prepare test file: " ++ e.message)]
      ("Failed to prepare test file: " ++ e.message)
      (r := { recorded (b.fileOpening (b.cacheControl host r.world)) r with world := v })
    apply (hnoted.opened rfl rfl rfl rfl (perform_runFile r hmade)).mono
    rintro events ⟨rest, rfl, hrest⟩
    refine ⟨rest, rfl, ?_⟩
    rw [hplan]
    exact hrest
  · have hplan : (b.filePart host r.world).plan =
        b.planOver host (b.cacheControl host r.world) fixture := by simp [filePart, hmade]
    rw [hplan, fileRepetitions, hmade]
    have hover : Tells _ _
        (b.runOverFixture host Sink.recorder (b.cacheControl host r.world) fixture)
        { recorded (b.fileOpening (b.cacheControl host r.world)) r with world := v } :=
      tells_runOverFixture hblock (b.cacheControl host r.world) fixture _
    apply (hover.opened rfl rfl rfl rfl (perform_runFile r hmade)).mono
    rintro events ⟨rest, rfl, hrest⟩
    refine ⟨rest, rfl, ?_⟩
    rw [hplan]
    exact hrest

theorem afterMemory_eq (w : σ) :
    b.afterMemory host w =
      ((b.runMemory host Sink.recorder).perform { world := w, sink := [] }).2.world := by
  rw [afterMemory, run, runSuites_memory, Action.perform_bind]
  cases (b.runMemory host Sink.recorder).perform { world := w, sink := [] } with
  | mk answer r => cases answer <;> rfl

theorem completes_memory_iff {w : σ} : b.Completes host .memory w ↔
    b.Settled host (b.memoryRepetitions host { world := w, sink := [] }) := by
  constructor
  · exact Completes.settled
  · intro h
    refine ⟨?_, h⟩
    intro part hpart reason
    obtain rfl := List.mem_singleton.mp hpart
    simp [memoryPart]

theorem completes_file_iff {w : σ} : b.Completes host .file w ↔
    (∀ reason, (b.filePart host w).plan ≠ .error (.halted reason)) ∧
      b.Settled host (b.fileRepetitions host { world := w, sink := [] }) := by
  constructor
  · intro h
    exact ⟨h.planned _ List.mem_cons_self, h.settled⟩
  · rintro ⟨hplan, hsettled⟩
    refine ⟨?_, hsettled⟩
    intro part hpart
    obtain rfl := List.mem_singleton.mp hpart
    exact hplan

/-- The file suite begins in the surroundings that the memory suite has left behind. -/
theorem completes_all_iff {w : σ} {r : Run σ (List Event)}
    (h : (b.runMemory host Sink.recorder).perform { world := w, sink := [] } = (.ok (), r)) :
    b.Completes host .all w ↔
      b.Settled host (b.memoryRepetitions host { world := w, sink := [] }) ∧
        (∀ reason, (b.filePart host r.world).plan ≠ .error (.halted reason)) ∧
          b.Settled host (b.fileRepetitions host r) := by
  have hreps : b.repetitions host .all w =
      b.memoryRepetitions host { world := w, sink := [] } ++ b.fileRepetitions host r := by
    rw [repetitions, h]
    rfl
  have hparts : b.parts host .all w = [b.memoryPart host, b.filePart host r.world] := by
    rw [parts, afterMemory_eq, h]
  constructor
  · rintro ⟨hplanned, hsettled⟩
    rw [hparts] at hplanned
    rw [hreps, settled_append] at hsettled
    exact ⟨hsettled.1, hplanned _ (by simp), hsettled.2⟩
  · rintro ⟨hmemory, hplan, hfile⟩
    refine ⟨?_, by rw [hreps, settled_append]; exact ⟨hmemory, hfile⟩⟩
    rw [hparts]
    intro part hpart
    obtain rfl | hlast := List.mem_cons.mp hpart
    · simp [memoryPart]
    · obtain rfl := List.mem_singleton.mp hlast
      exact hplan

theorem tells_runSuites (suites : Suites) (w : σ) (hpage : b.config.memory.pageSize ≠ 0)
    (hblock : b.config.file.blockSize ≠ 0) :
    Tells (b.Completes host suites w) (b.TellsRun host suites w)
      (b.runSuites host Sink.recorder suites) { world := w, sink := [] } := by
  have hmemory : Tells _ _ (b.runMemory host Sink.recorder) { world := w, sink := [] } :=
    tells_runMemory hpage _
  have hfile : ∀ r, Tells _ _ (b.runFile host Sink.recorder) r := tells_runFile hblock
  cases suites with
  | all =>
    rw [runSuites_all]
    apply (hmemory.bind (hfile _).thenFinished (fun h => (settled_append.mp h.settled).1) ?_).mono
    · rintro events ⟨memory, _, hmemory, ⟨file, hfile, rfl⟩, rfl⟩
      rw [← afterMemory_eq] at hfile
      exact ⟨[memory, file], .cons hmemory (.cons hfile .nil), by simp⟩
    · intro hsettled hok
      rw [completes_all_iff (Prod.ext hok rfl)]
      exact and_iff_right hsettled
  | memory =>
    rw [runSuites_memory]
    apply (hmemory.thenFinished.congr completes_memory_iff.symm).mono
    rintro events ⟨memory, hmemory, rfl⟩
    exact ⟨[memory], .cons hmemory .nil, by simp⟩
  | file =>
    rw [runSuites_file]
    apply ((hfile _).thenFinished.congr completes_file_iff.symm).mono
    rintro events ⟨file, hfile, rfl⟩
    exact ⟨[file], .cons hfile .nil, by simp⟩

/-- A run that completes has its whole trace and the counts of it. Any other run halts. -/
theorem run_recorder (suites : Suites) (w : σ) (hpage : b.config.memory.pageSize ≠ 0)
    (hblock : b.config.file.blockSize ≠ 0) :
    (b.Completes host suites w →
      (b.run host Sink.recorder suites w []).1 = .ok (Summary.ofEvents (b.events host suites w)) ∧
        b.TellsRun host suites w (b.events host suites w)) ∧
      (¬ b.Completes host suites w →
        ∃ reason, (b.run host Sink.recorder suites w []).1 = .error (.halted reason)) := by
  obtain ⟨hdone, hhalted⟩ := tells_runSuites suites w hpage hblock rfl
  constructor
  · intro hcompletes
    obtain ⟨events, htold, hok, hsink, hsummary⟩ := hdone hcompletes
    rw [List.nil_append] at hsink hsummary
    have hevents : b.events host suites w = events := hsink
    rw [hevents]
    refine ⟨?_, htold⟩
    simp only [run, hok, hsummary, Except.map]
  · intro hnot
    obtain ⟨reason, hhalt⟩ := hhalted hnot
    refine ⟨reason, ?_⟩
    simp only [run, hhalt, Except.map]

end Benchmark

end AccessBench
