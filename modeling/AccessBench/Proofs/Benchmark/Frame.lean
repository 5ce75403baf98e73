import AccessBench.Proofs.Benchmark.Feed
import AccessBench.Proofs.Trial.Frame

/-!
Properties of the surroundings that the sections of a run preserve, whatever the sink answers.
-/

namespace AccessBench

variable {σ τ : Type} {inv : σ → Prop}

theorem Run.preserves_emit (sink : Sink τ) (event : Event) :
    (Run.emit (σ := σ) sink event).Preserves fun r => inv r.world := fun _ hr => hr

namespace Benchmark

variable {host : Host σ} {b : Benchmark} {rig : Rig σ} (sink : Sink τ)

theorem preserves_measureScenario {s : Scenario} (h : rig.Preserves inv s) (pattern : AccessPattern) :
    (b.measureScenario (τ := τ) host rig s pattern).Preserves fun r => inv r.world := by
  intro r hr
  have hrow := h.repeatTrials host.space b.config.iterations pattern r.world hr
  rw [perform_measureScenario]
  match (rig.repeatTrials host.space b.config.iterations s pattern).perform r.world, hrow with
  | (.ok (row, lines), world), hrow => exact hrow
  | (.error stop, world), hrow => exact hrow

theorem preserves_runScenarios (title : String) {scenarios : List Scenario}
    (h : ∀ s ∈ scenarios, rig.Preserves inv s) (cache : PermutationCache) :
    (b.runScenarios host sink rig title cache scenarios).Preserves fun r => inv r.world := by
  induction scenarios generalizing cache with
  | nil => exact .pure ()
  | cons s rest ih =>
    obtain ⟨hhead, hrest⟩ := List.forall_mem_cons.mp h
    refine Action.Preserves.bind (.ofAnswer _) fun units => ?_
    match s.kind.materialize host.canIndex units b.config.randomSeed cache with
    | (.error e, _) =>
      exact Action.Preserves.bind (.update fun _ hr => hr) fun _ =>
        (Run.preserves_emit sink _).bind fun _ => .update fun _ hr => hr
    | (.ok pattern, kept) =>
      exact (preserves_measureScenario hhead pattern).bind fun row =>
        Action.Preserves.bind (.update fun _ hr => hr) fun _ =>
          (Run.preserves_emit sink _).bind fun _ => ih hrest kept

theorem preserves_runMatrix {m : Matrix} (h : ∀ part ∈ m, ∀ s ∈ part.scenarios, rig.Preserves inv s) :
    (b.runMatrix host sink rig m).Preserves fun r => inv r.world := by
  induction m with
  | nil => exact .pure ()
  | cons part rest ih =>
    obtain ⟨hhead, hrest⟩ := List.forall_mem_cons.mp h
    exact (Run.preserves_emit sink _).bind fun _ =>
      (preserves_runScenarios sink part.title hhead none).bind fun _ => ih hrest

theorem preserves_skipFile (e : BenchError) :
    (skipFile (σ := σ) sink e).Preserves fun r => inv r.world :=
  Action.Preserves.bind (.update fun _ hr => hr) fun _ =>
    (Run.preserves_emit sink _).bind fun _ => .update fun _ hr => hr

end Benchmark

end AccessBench
