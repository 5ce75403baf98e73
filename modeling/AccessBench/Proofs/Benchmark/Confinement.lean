import AccessBench.Proofs.Benchmark.Repetitions
import AccessBench.Proofs.Config.Validation
import AccessBench.Proofs.Machine
import AccessBench.Proofs.Machine.Bounds
import AccessBench.Proofs.Scenario.Matrix

/-!
Runs that stay inside their regions. The units of a scenario and those of its region are counted
alike, and a pattern that a section keeps for a later scenario is only used where it fits; so no row
of a run on a machine fails for want of a fit.
-/

namespace AccessBench

/-- A pattern over so many units touches the unit, timed or in the pass that warms the cache. -/
def AccessPattern.Reaches (pattern : AccessPattern) (units i : Nat) : Prop :=
  i ∈ (pattern.order units).toList ∨ i ∈ (AccessPattern.order units .sequential).toList

theorem AccessPattern.Fits.lt_of_reaches {pattern : AccessPattern} {units i : Nat}
    (h : pattern.Fits units) (hi : pattern.Reaches units i) : i < units := by
  obtain htimed | hwarm := hi
  · exact h.inside i htimed
  · exact (fits_sequential units).inside i hwarm

/-- Whatever the scenarios before it in its section have left, a scenario of the matrix that gets a
pattern has its traversal inside every region of its size and unit, and so inside the one that it
acquires. -/
def Rig.StaysInside (rig : Rig Machine) (canIndex : Nat → Bool) (seed : UInt64) (m : Matrix) :
    Prop :=
  ∀ part ∈ m, ∀ earlier s later, part.scenarios = earlier ++ s :: later →
    ∃ units, s.units = .ok units ∧
      ∀ pattern kept,
        s.kind.materialize canIndex units seed (PermutationCache.leftBy canIndex seed earlier) =
          (.ok pattern, kept) →
        pattern.check units = .ok () ∧
          (∀ i, pattern.Reaches units i → i * s.unit.toNat < s.size.toNat) ∧
          (∀ region : Region, region.Spans s.size s.unit → region.units = .ok units ∧
            ∀ i access store, pattern.Reaches units i → ¬ region.Refuses i access store) ∧
          (∀ w v, (rig.acquire s).perform w = (.ok (), v) →
            rig.units v = .ok units ∧
              ∃ region, v.region = some region ∧ region.Spans s.size s.unit) ∧
          ∀ w n e, rig.outcome s pattern w n = .error (.failed e) → ¬ e.Misfit

theorem Rig.staysInside_of_confines {rig : Rig Machine} {m : Matrix}
    (hunits : ∀ part ∈ m, ∀ s ∈ part.scenarios, s.unit ≠ 0)
    (h : ∀ s, s.unit ≠ 0 → rig.Confines s (Machine.Holds s)) (canIndex : Nat → Bool)
    (seed : UInt64) : rig.StaysInside canIndex seed m := by
  intro part hpart earlier s later hsplit
  have hunit : s.unit ≠ 0 := hunits part hpart s (by simp [hsplit])
  have hpos : 0 < s.unit.toNat := toNat_pos_of_ne_zero hunit
  have hconfines := h s hunit
  refine ⟨_, Scenario.units_of_unit_ne_zero hunit, ?_⟩
  intro pattern kept hpattern
  have hfits : pattern.Fits (unitsToCover s.size.toNat s.unit.toNat) :=
    PatternKind.fits_of_materialize (PermutationCache.bounded_leftBy canIndex seed earlier) hpattern
  have hbegin : ∀ i, pattern.Reaches (unitsToCover s.size.toNat s.unit.toNat) i →
      i * s.unit.toNat < s.size.toNat := by
    intro i hi
    exact (lt_unitsToCover_iff hpos).mp (hfits.lt_of_reaches hi)
  refine ⟨hfits.check, hbegin, ?_, ?_, ?_⟩
  · intro region hspans
    refine ⟨hspans.units hunit, ?_⟩
    intro i access store hi
    rw [Region.refuses_iff, hspans.size, hspans.unit, Nat.not_le]
    exact hbegin i hi
  · intro w v hacquired
    have hholds := hconfines.acquire w
    rw [hacquired] at hholds
    obtain ⟨region, hregion, hsize, hregionUnit⟩ := hholds
    exact ⟨hconfines.units v ⟨region, hregion, hsize, hregionUnit⟩, region, hregion, hsize,
      hregionUnit⟩
  · intro w n e hfail
    exact hconfines.not_misfit_of_outcome hpos hfits hfail

namespace Benchmark

theorem not_misfit_of_mem_repetitions (platform : Platform) (b : Benchmark) {suites : Suites}
    {m : Machine} {rep : Repetition Machine}
    (hrep : rep ∈ b.repetitions (Machine.host platform) suites m) {n : Nat} {e : BenchError}
    (hfail : rep.rig.outcome rep.scenario rep.pattern rep.world n = .error (.failed e)) :
    ¬ e.Misfit := by
  obtain ⟨hrig, -, hunit, hfits⟩ | ⟨path, cache, -, -, -, hrig, -, hunit, hfits⟩ :=
    of_mem_repetitions hrep
  · rw [hrig] at hfail
    exact (Machine.confines_memoryRig platform hunit).not_misfit_of_outcome
      (toNat_pos_of_ne_zero hunit) hfits hfail
  · rw [hrig] at hfail
    exact (Machine.confines_fileRig platform path cache hunit).not_misfit_of_outcome
      (toNat_pos_of_ne_zero hunit) hfits hfail

/-- The scenarios of a valid configuration stay inside their regions, with every permutation that
their sections can have kept. The rows that a run hands to its sink are those of its repetitions, and
no trial of these fails for a unit outside or a permutation of another length. -/
theorem run_stays_inside (platform : Platform) (b : Benchmark)
    (hvalid : b.config.validate = .ok ()) :
    (∀ canIndex seed,
      (Machine.memoryRig platform).StaysInside canIndex seed b.config.memory.matrix) ∧
    (∀ canIndex seed path cache length m, b.config.file.matrix length = .ok m →
      (Machine.fileRig platform path cache).StaysInside canIndex seed m) ∧
    ∀ suites m,
      (∀ rep ∈ b.repetitions (Machine.host platform) suites m, ∀ n e,
        rep.rig.outcome rep.scenario rep.pattern rep.world n = .error (.failed e) → ¬ e.Misfit) ∧
      ∀ (τ : Type) (sink : Sink τ) (t : τ),
        ((b.calls (Machine.host platform) sink suites m t).map Sink.Call.event).filterMap
            Event.row? <+:
          (b.repetitions (Machine.host platform) suites m).filterMap
            (b.rowOf? (Machine.host platform)) := by
  refine ⟨?_, ?_, ?_⟩
  · intro canIndex seed
    exact Rig.staysInside_of_confines (MemoryConfig.unit_ne_zero (Config.pageSize_ne_zero hvalid))
      (fun s hunit => Machine.confines_memoryRig platform hunit) canIndex seed
  · intro canIndex seed path cache length m hm
    exact Rig.staysInside_of_confines
      (FileConfig.unit_ne_zero hm (Config.blockSize_ne_zero hvalid))
      (fun s hunit => Machine.confines_fileRig platform path cache hunit) canIndex seed
  · intro suites m
    refine ⟨?_, ?_⟩
    · intro rep hrep n e
      exact not_misfit_of_mem_repetitions platform b hrep
    · intro τ sink t
      rw [← rows_eq, calls_eq, Sink.map_event_calls]
      exact (List.take_prefix _ _).filterMap _

/-- Regions that end in the middle of a unit, as long as lengths go, where everything can be
mapped that an object can have. -/
def ragged : Benchmark where
  config := {
    memory := { sizes := [0, 1, 0xFFFFFFFFFFFFFFFF], patternSize := 0x7FFFFFFFFFFFFFFF,
                strides := [3, 0xFFFFFFFFFFFFFFFF], pageSize := 0x4000000000000000 }
    file := { blockSize := 0xFFFFFFFFFFFFFFFF, blockSizes := [7], strides := [5] } }

theorem run_stays_inside_ragged :
    let roomy : Platform := { Machine.still with space := .limited (objectLimit + 1) }
    ragged.config.validate = .ok () ∧
      (MemoryRegion.map roomy.space 0x7FFFFFFFFFFFFFFF 0x4000000000000000).isOk ∧
      (Machine.memoryRig roomy).StaysInside (fun _ => true) 7 ragged.config.memory.matrix := by
  intro roomy
  have hvalid : ragged.config.validate = .ok () := by decide
  exact ⟨hvalid, rfl, (run_stays_inside roomy ragged hvalid).1 _ _⟩

end Benchmark

end AccessBench
