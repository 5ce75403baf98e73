import AccessBench.Proofs.Benchmark.Frame
import AccessBench.Proofs.Report.Event

/-!
Runs enter a section before every row, whichever scenarios fail and wherever they stop.
-/

namespace AccessBench

open Event (RowsFollowSection entry?)

variable {σ α : Type}

namespace Run

/-- What has been recorded of a run before its sections, between them and after them. -/
def Ordered (r : Run σ (List Event)) : Prop := RowsFollowSection r.sink

/-- What has been recorded of a run whose rows can be told. -/
structure InSection (r : Run σ (List Event)) : Prop where
  ordered : r.Ordered
  entered : r.sink.filterMap entry? ≠ []

theorem ordered_emit {event : Event} (h : event.row? = none) :
    (Run.emit (σ := σ) Sink.recorder event).Preserves Ordered := by
  intro r hr
  refine Event.rowsFollowSection_append_singleton.mpr ⟨hr, fun hrow => ?_⟩
  rw [h] at hrow
  cases hrow

theorem inSection_emit (event : Event) :
    (Run.emit (σ := σ) Sink.recorder event).Preserves InSection := by
  intro r hr
  constructor
  · exact Event.rowsFollowSection_append_singleton.mpr ⟨hr.ordered, fun _ => hr.entered⟩
  · change (r.sink ++ [event]).filterMap entry? ≠ []
    rw [List.filterMap_append]
    exact List.append_ne_nil_of_left_ne_nil hr.entered _

theorem inSection_emit_entered (title : String) (suite : Suite) :
    (Run.emit (σ := σ) Sink.recorder (.entered title suite)).Reaches Ordered InSection := by
  intro r hr
  constructor
  · exact ordered_emit rfl r hr
  · change (r.sink ++ [Event.entered title suite]).filterMap entry? ≠ []
    simp

end Run

open Run (Ordered InSection)

namespace Benchmark

variable {host : Host σ} {b : Benchmark} {rig : Rig σ}

theorem inSection_measureScenario (s : Scenario) (pattern : AccessPattern) :
    (b.measureScenario host rig s pattern).Preserves InSection := by
  intro r hr
  rw [perform_measureScenario]
  split <;> exact ⟨hr.ordered, hr.entered⟩

theorem inSection_runScenarios (title : String) (cache : PermutationCache)
    (scenarios : List Scenario) :
    (b.runScenarios host Sink.recorder rig title cache scenarios).Preserves InSection := by
  induction scenarios generalizing cache with
  | nil => exact .pure ()
  | cons s rest ih =>
    refine Action.Preserves.bind (.ofAnswer _) fun units => ?_
    match s.kind.materialize host.canIndex units b.config.randomSeed cache with
    | (.error e, _) =>
      exact Action.Preserves.bind (.update fun _ hr => ⟨hr.ordered, hr.entered⟩) fun _ =>
        (Run.inSection_emit _).bind fun _ => .update fun _ hr => ⟨hr.ordered, hr.entered⟩
    | (.ok pattern, kept) =>
      exact (inSection_measureScenario s pattern).bind fun row =>
        Action.Preserves.bind (.update fun _ hr => ⟨hr.ordered, hr.entered⟩) fun _ =>
          (Run.inSection_emit _).bind fun _ => ih kept

theorem ordered_runMatrix (rig : Rig σ) (m : Matrix) :
    (b.runMatrix host Sink.recorder rig m).Preserves Ordered := by
  induction m with
  | nil => exact .pure ()
  | cons part rest ih =>
    have hsection : (b.runScenarios host Sink.recorder rig part.title none
        part.scenarios).Preserves InSection := inSection_runScenarios part.title none part.scenarios
    refine Action.Reaches.bind (Run.inSection_emit_entered part.title part.suite)
      (fun _ hr => hr.ordered) fun _ => ?_
    exact Action.Reaches.bind hsection (fun _ hr => hr.ordered) fun _ r hr => ih r hr.ordered

theorem ordered_runMemory : (b.runMemory host Sink.recorder).Preserves Ordered :=
  (Run.ordered_emit rfl).bind fun _ => ordered_runMatrix host.memoryRig b.config.memory.matrix

theorem ordered_runOverFixture (cache : CacheControl) (fixture : FixtureFile) :
    (b.runOverFixture host Sink.recorder cache fixture).Preserves Ordered := by
  refine Action.Preserves.unwinding ?_ fun _ hr => hr
  exact Action.Preserves.bind (.ofAnswer _) fun m => ordered_runMatrix _ m

theorem ordered_skipFile (e : BenchError) :
    (skipFile (σ := σ) Sink.recorder e).Preserves Ordered :=
  Action.Preserves.bind (.update fun _ hr => hr) fun _ =>
    (Run.ordered_emit rfl).bind fun _ => .update fun _ hr => hr

theorem ordered_runFile : (b.runFile host Sink.recorder).Preserves Ordered := by
  refine Action.Preserves.bind (.update fun _ hr => hr) fun cache => ?_
  refine (Run.ordered_emit rfl).bind fun _ => ?_
  refine Action.Preserves.bind (.update fun _ hr => hr) fun fixture => ?_
  match fixture with
  | .error e => exact ordered_skipFile e
  | .ok fixture => exact ordered_runOverFixture cache fixture

theorem ordered_runSuites (suites : Suites) :
    (b.runSuites host Sink.recorder suites).Preserves Ordered := by
  have hfinish : (Run.emit (σ := σ) Sink.recorder (.finished completionBanner)).Preserves Ordered :=
    Run.ordered_emit rfl
  cases suites with
  | all => exact ordered_runMemory.bind fun _ => ordered_runFile.bind fun _ => hfinish
  | memory => exact ordered_runMemory.bind fun _ => hfinish
  | file => exact ordered_runFile.bind fun _ => hfinish

variable (host b)

theorem rowsFollowSection_events (suites : Suites) (w : σ) :
    RowsFollowSection (b.events host suites w) :=
  ordered_runSuites suites { world := w, sink := [] } Event.rowsFollowSection_nil

/-- What is handed to any sink begins a recorded run, and a sink that fails cuts it off. -/
theorem rowsFollowSection_calls {τ : Type} (sink : Sink τ) (suites : Suites) (w : σ) (t : τ) :
    RowsFollowSection ((b.calls host sink suites w t).map Sink.Call.event) := by
  have hall := rowsFollowSection_events host b suites w
  rw [b.calls_eq, Sink.map_event_calls]
  rw [← List.take_append_drop (sink.calls (b.events host suites w) t).length
    (b.events host suites w)] at hall
  exact hall.of_append

end Benchmark

end AccessBench
