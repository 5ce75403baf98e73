import AccessBench.Proofs.Benchmark.Trace
import AccessBench.Proofs.Machine
import Mathlib

/-!
Runs that complete, and what ends the others. A run whose repetitions all settle hands its whole
trace to its sink, unless the sink fails; any other run halts on the way, with a sink that takes all
events too.
-/

namespace AccessBench.Benchmark

variable {σ τ : Type} {host : Host σ} {b : Benchmark} {suites : Suites} {w : σ}

theorem completes_iff (hpage : b.config.memory.pageSize ≠ 0) (hblock : b.config.file.blockSize ≠ 0) :
    b.Completes host suites w ↔
      (b.run host Sink.recorder suites w []).1.toOption.isSome = true := by
  obtain ⟨hdone, hhalted⟩ := run_recorder suites w hpage hblock
  constructor
  · intro h
    rw [(hdone h).1]
    rfl
  · intro hok
    by_contra hnot
    obtain ⟨reason, hhalt⟩ := hhalted hnot
    rw [hhalt] at hok
    cases hok

theorem run_eq_recorder (host : Host σ) (b : Benchmark) (suites : Suites) (w : σ) (sink : Sink τ)
    (t : τ) (hquiet : ∀ call ∈ b.calls host sink suites w t, call.answer = .ok ()) :
    (b.run host sink suites w t).1 = (b.run host Sink.recorder suites w []).1 ∧
      (b.calls host sink suites w t).map Sink.Call.event = b.events host suites w := by
  rw [b.calls_eq host sink suites w t, Sink.calls_ok_iff] at hquiet
  constructor
  · have hend := (b.run_eq_feed host sink suites w t).2
    rw [hquiet] at hend
    exact hend
  · rw [b.calls_eq host sink suites w t, Sink.calls_of_ok hquiet]
    simp [Function.comp_def]

/-- Over a sink that takes all calls, a run that nothing halts hands over the whole trace and returns
the counts of it, whatever fails below the run; its rows are the results of its repetitions. Any other
run halts. -/
theorem run_completes (host : Host σ) (b : Benchmark) (suites : Suites) (w : σ) (sink : Sink τ)
    (t : τ) (hpage : b.config.memory.pageSize ≠ 0) (hblock : b.config.file.blockSize ≠ 0)
    (hquiet : ∀ call ∈ b.calls host sink suites w t, call.answer = .ok ()) :
    let events := (b.calls host sink suites w t).map Sink.Call.event
    (b.Completes host suites w →
      (b.run host sink suites w t).1 = .ok (Summary.ofEvents events) ∧
        b.TellsRun host suites w events ∧
        events.filterMap Event.row? = (b.repetitions host suites w).filterMap (b.rowOf? host)) ∧
      (¬ b.Completes host suites w →
        ∃ reason, (b.run host sink suites w t).1 = .error (.halted reason)) := by
  intro events
  obtain ⟨hrun, hevents⟩ := run_eq_recorder host b suites w sink t hquiet
  obtain ⟨hdone, hhalted⟩ := run_recorder suites w hpage hblock
  have hevents' : events = b.events host suites w := hevents
  rw [hrun, hevents']
  refine ⟨?_, hhalted⟩
  intro h
  exact ⟨(hdone h).1, (hdone h).2, rows_eq host b suites w⟩

theorem planned_of_distancesFit (h : b.config.file.DistancesFit) :
    ∀ part ∈ b.parts host suites w, ∀ reason, part.plan ≠ .error (.halted reason) := by
  have hfile : ∀ v reason, (b.filePart host v).plan ≠ .error (.halted reason) := by
    intro v reason
    rw [filePart]
    cases (b.prepareFixture host v).1 with
    | error e => simp
    | ok fixture =>
      obtain ⟨m, hm⟩ : ∃ m, b.config.file.matrix fixture.length = .ok m :=
        FileConfig.exists_matrix_iff.mpr h
      simp [planOver, hm]
  have hmemory : ∀ reason, (b.memoryPart host).plan ≠ .error (.halted reason) := by
    simp [memoryPart]
  cases suites with
  | all => exact List.forall_mem_cons.mpr ⟨hmemory, List.forall_mem_singleton.mpr (hfile _)⟩
  | memory => exact List.forall_mem_singleton.mpr hmemory
  | file => exact List.forall_mem_singleton.mpr (hfile w)

/-- On a machine nothing halts a run but what is too large: the distance of a stride, the list of the
trials or a buffer for a block, and the sums of the trials of a scenario. -/
theorem completes_machine {platform : Platform} {m : Machine}
    (hdistances : b.config.file.DistancesFit)
    (hlist : platform.space.obtain
      (Rig.trialBytes * Rig.repetitions b.config.iterations) = .ok ())
    (hbuffers : ∀ size ∈ b.config.file.blockSize :: b.config.file.blockSizes,
      platform.space.obtain size.toNat = .ok ())
    (hsums : ∀ rep ∈ b.repetitions (Machine.host platform) suites m, ∀ ts,
      (List.range (Rig.repetitions b.config.iterations)).map
        (rep.rig.outcome rep.scenario rep.pattern rep.world) = ts.map .ok → Trial.Summable ts) :
    b.Completes (Machine.host platform) suites m := by
  refine ⟨planned_of_distancesFit hdistances, ?_⟩
  intro rep hrep
  have hnever : rep.rig.NeverHalts rep.scenario := by
    obtain ⟨hrig, -, hunit, -⟩ | ⟨path, cache, length, matrix, hmatrix, hrig, hmem, hunit, -⟩ :=
      of_mem_repetitions hrep
    · rw [hrig]
      exact Machine.neverHalts_memoryRig platform hunit
    · obtain ⟨s, hs, hscenario⟩ := hmem
      rw [hrig]
      apply Machine.neverHalts_fileRig platform path cache hunit
      apply hbuffers
      obtain hsize | ⟨hlisted, -⟩ := FileConfig.unit_cases hmatrix s hs rep.scenario hscenario
      · rw [hsize]
        exact List.mem_cons_self
      · exact List.mem_cons_of_mem _ hlisted
  exact ⟨hlist, fun j _ _ reason => hnever.outcome_ne_halted rep.pattern rep.world j reason,
    hsums rep hrep⟩

theorem calls_recorder (host : Host σ) (b : Benchmark) (suites : Suites) (w : σ) :
    ∀ call ∈ b.calls host Sink.recorder suites w [], call.answer = .ok () := by
  rw [calls_eq, Sink.calls_ok_iff, Sink.feed_recorder]

/-- A small region, and regions that no memory has room for, each asked for so many times. -/
def crowded (iterations : UInt64) : Benchmark where
  config := {
    iterations := iterations
    memory := { sizes := [10, 0x4000000000000000], strides := [3],
                patternSize := 0x4000000000000000 } }

def stillHost : Host Machine := Machine.host Machine.still

/-- Two scenarios are measured, four have no region, and the last one has no permutation. -/
theorem run_completes_crowded :
    let events := ((crowded 3).calls stillHost Sink.recorder .memory {} []).map Sink.Call.event
    (crowded 3).config.memory.pageSize ≠ 0 ∧ (crowded 3).config.file.blockSize ≠ 0 ∧
      (∀ call ∈ (crowded 3).calls stillHost Sink.recorder .memory {} [], call.answer = .ok ()) ∧
      (crowded 3).Completes stillHost .memory {} ∧
      ((crowded 3).run stillHost Sink.recorder .memory {} []).1 = .ok (Summary.ofEvents events) ∧
      (crowded 3).TellsRun stillHost .memory {} events ∧
      ((crowded 3).run stillHost Sink.recorder .memory {} []).1.toOption = some ⟨6, 4, 1⟩ := by
  intro events
  have hpage : (crowded 3).config.memory.pageSize ≠ 0 := by decide
  have hblock : (crowded 3).config.file.blockSize ≠ 0 := by decide
  have hquiet := (crowded 3).calls_recorder stillHost .memory {}
  have hcounts : ((crowded 3).run stillHost Sink.recorder .memory {} []).1.toOption =
      some ⟨6, 4, 1⟩ := by
    decide +kernel
  have hcompletes : (crowded 3).Completes stillHost .memory {} := by
    rw [completes_iff hpage hblock, hcounts]
    rfl
  obtain ⟨hdone, -⟩ :=
    run_completes stillHost (crowded 3) .memory {} Sink.recorder [] hpage hblock hquiet
  obtain ⟨hok, htells, -⟩ := hdone hcompletes
  exact ⟨hpage, hblock, hquiet, hcompletes, hok, htells, hcounts⟩

/-- More trials of each scenario than any list can hold, the first of which fails. -/
def endless : Benchmark where
  config := {
    iterations := 0xFFFFFFFFFFFFFFFF
    memory := { sizes := [0x4000000000000000], strides := [3],
                patternSize := 0x4000000000000000 } }

/-- No call on the sink fails here, and no trial is run; yet there is neither a finished report nor a
result, whatever the system has room for. -/
theorem run_halts_endless :
    endless.config.validate = .ok () ∧
      (∀ call ∈ endless.calls stillHost Sink.recorder .memory {} [], call.answer = .ok ()) ∧
      (∀ space : AddressSpace, space.obtain
        (Rig.trialBytes * Rig.repetitions endless.config.iterations) = .error .oversized) ∧
      ∃ reason, (endless.run stillHost Sink.recorder .memory {} []).1 =
        .error (.halted reason) := by
  have hpage : endless.config.memory.pageSize ≠ 0 := by decide
  have hblock : endless.config.file.blockSize ≠ 0 := by decide
  have hnone : ¬ endless.Completes stillHost .memory {} := by
    rw [completes_iff hpage hblock]
    decide +kernel
  obtain ⟨-, hhalted⟩ := run_recorder .memory ({} : Machine) hpage hblock
  exact ⟨by decide, calls_recorder _ _ _ _, fun _ => rfl, hhalted hnone⟩

/-- The error of a run is that of the last call on its sink, the only one that fails. -/
theorem calls_of_failed (host : Host σ) (b : Benchmark) (suites : Suites) (w : σ) (sink : Sink τ)
    (t : τ) {e : BenchError} (h : (b.run host sink suites w t).1 = .error (.failed e)) :
    ∃ before event failure, e = .output failure ∧
      b.calls host sink suites w t = before ++ [⟨event, .error failure⟩] ∧
      ∀ call ∈ before, call.answer = .ok () := by
  obtain ⟨failure, rfl, hfeed⟩ := (b.run_failed_iff host sink suites w t e).mp h
  obtain ⟨before, event, -, -, hcut⟩ := Sink.calls_of_error hfeed
  refine ⟨_, event, failure, rfl, (b.calls_eq host sink suites w t).trans hcut, ?_⟩
  intro call hcall
  obtain ⟨-, -, rfl⟩ := List.mem_map.mp hcall
  rfl

theorem exists_failed_iff (host : Host σ) (b : Benchmark) (suites : Suites) (w : σ) (sink : Sink τ)
    (t : τ) : (∃ e, (b.run host sink suites w t).1 = .error (.failed e)) ↔
      ∃ call ∈ b.calls host sink suites w t, call.answer ≠ .ok () := by
  constructor
  · rintro ⟨e, he⟩
    obtain ⟨before, event, failure, -, hcalls, -⟩ := calls_of_failed host b suites w sink t he
    exact ⟨⟨event, .error failure⟩, by simp [hcalls], by simp⟩
  · rintro ⟨call, hcall, hfails⟩
    rw [calls_eq] at hcall
    cases hfeed : (sink.feed (b.events host suites w) t).1 with
    | ok _ => exact absurd (Sink.calls_ok_iff.mpr hfeed call hcall) hfails
    | error failure =>
      exact ⟨_, (b.run_failed_iff host sink suites w t _).mpr ⟨failure, rfl, hfeed⟩⟩

/-- A run ends with an error when, and only when, a call on the sink fails. The error is that of the
call, and the call is the last one; the calls up to it are those of the same run over any sink that
does not fail. Where no call fails, the run returns its counts when nothing halts it, and only then:
otherwise it halts, and returns nothing. -/
theorem run_stops_with_sink (host : Host σ) (sink : Sink τ) (b : Benchmark) (suites : Suites)
    (w : σ) (t : τ) (hpage : b.config.memory.pageSize ≠ 0)
    (hblock : b.config.file.blockSize ≠ 0) :
    let ended := b.run host sink suites w t
    let calls := b.calls host sink suites w t
    ((∃ e, ended.1 = .error (.failed e)) ↔ ∃ call ∈ calls, call.answer ≠ .ok ()) ∧
      (∀ e, ended.1 = .error (.failed e) →
        ∃ before event failure, e = .output failure ∧
          calls = before ++ [⟨event, .error failure⟩] ∧
          ∀ call ∈ before, call.answer = .ok ()) ∧
      (∀ (τ' : Type) (quiet : Sink τ') (t' : τ'),
        (∀ call ∈ b.calls host quiet suites w t', call.answer = .ok ()) →
          calls.map Sink.Call.event =
            ((b.calls host quiet suites w t').map Sink.Call.event).take calls.length ∧
          ((∀ call ∈ calls, call.answer = .ok ()) →
            calls.length = (b.calls host quiet suites w t').length ∧
              ended.1 = (b.run host quiet suites w t').1)) ∧
      ((∀ call ∈ calls, call.answer = .ok ()) →
        (b.Completes host suites w →
          ended.1 = .ok (Summary.ofEvents (calls.map Sink.Call.event))) ∧
        (¬ b.Completes host suites w → ∃ reason, ended.1 = .error (.halted reason))) ∧
      (b.run host sink.traced suites w (t, [])).1 = ended.1 ∧
      (b.run host sink.traced suites w (t, [])).2.sink = (ended.2.sink, calls) := by
  intro ended calls
  obtain ⟨htraced, htracedSink⟩ := b.run_traced host sink suites w t
  refine ⟨exists_failed_iff host b suites w sink t,
    fun _ => calls_of_failed host b suites w sink t, ?_, ?_, htraced, Prod.ext htracedSink rfl⟩
  · intro τ' quiet t' hquiet
    obtain ⟨hquietRun, hquietEvents⟩ := run_eq_recorder host b suites w quiet t' hquiet
    constructor
    · rw [hquietEvents]
      change (b.calls host sink suites w t).map Sink.Call.event = _
      rw [b.calls_eq host sink suites w t, Sink.map_event_calls, ← b.calls_eq host sink suites w t]
    · intro hok
      obtain ⟨hrun, hevents⟩ := run_eq_recorder host b suites w sink t hok
      have hlength := congrArg List.length (hevents.trans hquietEvents.symm)
      rw [List.length_map, List.length_map] at hlength
      exact ⟨hlength, hrun.trans hquietRun.symm⟩
  · intro hok
    obtain ⟨hrun, hevents⟩ := run_eq_recorder host b suites w sink t hok
    obtain ⟨hdone, hhalted⟩ := run_recorder suites w hpage hblock
    have hrun' : ended.1 = (b.run host Sink.recorder suites w []).1 := hrun
    have hevents' : calls.map Sink.Call.event = b.events host suites w := hevents
    rw [hrun', hevents']
    exact ⟨fun h => (hdone h).1, hhalted⟩

/-- A sink that takes so many events and then fails. -/
def shortSink : Sink Nat where
  receive
    | _, 0 => { state := 0, result := .error (.described "sink full") }
    | _, left + 1 => { state := left }

/-- The third call fails, which is the row of the first scenario. -/
theorem run_stops_with_sink_short :
    let calls := (crowded 3).calls stillHost shortSink .memory {} 2
    (crowded 3).config.memory.pageSize ≠ 0 ∧ (crowded 3).config.file.blockSize ≠ 0 ∧
      calls.map (fun call => call.answer.toOption.isSome) = [true, true, false] ∧
      ∃ e, ((crowded 3).run stillHost shortSink .memory {} 2).1 = .error (.failed e) := by
  intro calls
  have hpage : (crowded 3).config.memory.pageSize ≠ 0 := by decide
  have hblock : (crowded 3).config.file.blockSize ≠ 0 := by decide
  have hanswers : calls.map (fun call => call.answer.toOption.isSome) = [true, true, false] := by
    decide +kernel
  have hlast : false ∈ calls.map fun call => call.answer.toOption.isSome := by simp [hanswers]
  obtain ⟨call, hcall, hfails⟩ := List.mem_map.mp hlast
  obtain ⟨hiff, -⟩ :=
    run_stops_with_sink stillHost shortSink (crowded 3) .memory {} 2 hpage hblock
  refine ⟨hpage, hblock, hanswers, hiff.mpr ⟨call, hcall, ?_⟩⟩
  intro hok
  rw [hok] at hfails
  cases hfails

/-- A file of ten bytes, and a stride over blocks whose distance is 2⁶⁴ bytes. -/
def farStride : Benchmark where
  config := { file := { path := "/f", strides := [0x10000000000000] } }
  reuseFixture := true

/-- A machine with one file, of ten bytes. -/
def withShortFile : Machine where
  store := { entries := [(["f"], .file 0)], contents := #[⟨Array.replicate 10 7⟩] }

/-- No call on the sink fails here, there is room for the list of the trials and for every block,
and no trial is run; yet the run halts. -/
theorem run_halts_farStride :
    farStride.config.validate = .ok () ∧
      stillHost.space.obtain
        (Rig.trialBytes * Rig.repetitions farStride.config.iterations) = .ok () ∧
      stillHost.space.obtain farStride.config.file.blockSize.toNat = .ok () ∧
      (∀ call ∈ farStride.calls stillHost Sink.recorder .file withShortFile [],
        call.answer = .ok ()) ∧
      farStride.repetitions stillHost .file withShortFile = [] ∧
      ∃ reason, (farStride.run stillHost Sink.recorder .file withShortFile []).1 =
        .error (.halted reason) := by
  have hmade : farStride.prepareFixture stillHost withShortFile =
      (.ok ⟨"/f", 10, false⟩, withShortFile) := Prod.ext (by cbv) rfl
  have hmatrix : farStride.config.file.matrix 10 = .error .distanceOverflow := rfl
  have hreps : farStride.repetitions stillHost .file withShortFile = [] := by
    rw [repetitions, fileRepetitions, hmade]
    simp only [overFileRepetitions, hmatrix]
  have hplan : (farStride.filePart stillHost withShortFile).plan =
      .error (.halted .distanceOverflow) := by
    simp only [filePart, hmade, planOver, hmatrix]
  have hnone : ¬ farStride.Completes stillHost .file withShortFile :=
    fun h => h.planned _ List.mem_cons_self _ hplan
  have hpage : farStride.config.memory.pageSize ≠ 0 := by decide
  have hblock : farStride.config.file.blockSize ≠ 0 := by decide
  obtain ⟨-, hhalted⟩ := run_recorder .file withShortFile hpage hblock
  exact ⟨by decide, by decide, by decide, calls_recorder _ _ _ _, hreps, hhalted hnone⟩

end AccessBench.Benchmark
