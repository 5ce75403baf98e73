import AccessBench.Proofs.Benchmark.Repetitions

/-!
How many trials a row averages: those that were asked for, or it is the row of a failure.
-/

namespace AccessBench

variable {σ : Type}

namespace Row

theorem trials_of_ofTrials {s : Scenario} {metric : Metric} {ts : List Trial} {row : Row}
    (h : ofTrials s metric ts = .ok row) : row.trials = UInt64.ofNat ts.length := by
  by_cases hne : ts = []
  · subst hne
    cases h
    rfl
  · obtain ⟨_, _, _, -, -, -, rfl⟩ := (ofTrials_eq_ok_iff hne).mp h
    rfl

end Row

namespace Rig

variable {rig : Rig σ} {space : AddressSpace} {s : Scenario} {pattern : AccessPattern} {w : σ}
  {ts : List Trial}

theorem length_of_trialsFrom {n : Nat} {done : List Trial}
    (h : (rig.trialsFrom s pattern n done w).1 = .ok ts) : ts.length = done.length + n := by
  induction n generalizing done w with
  | zero =>
    obtain rfl : done.reverse = ts := Except.ok.inj h
    simp
  | succ n ih =>
    rw [trialsFrom] at h
    rcases htrial : (rig.trial s pattern).perform w with ⟨stop | result, v⟩
    · rw [htrial] at h
      cases h
    · rw [htrial] at h
      have hlength := ih h
      rw [List.length_cons] at hlength
      omega

theorem length_of_trials {count : Nat}
    (h : ((rig.trials space count s pattern).perform w).1 = .ok ts) : ts.length = count := by
  cases hroom : space.obtain (trialBytes * count) with
  | error reason =>
    rw [perform_trials_without_room w hroom] at h
    cases h
  | ok _ =>
    rw [perform_trials w hroom] at h
    have hlength := length_of_trialsFrom h
    rw [List.length_nil, Nat.zero_add] at hlength
    exact hlength

theorem trials_of_repeatTrials {iterations : UInt64} {row : Row} {lines : List String}
    (h : ((rig.repeatTrials space iterations s pattern).perform w).1 = .ok (row, lines))
    (hfailed : row.failed = false) : row.trials = UInt64.ofNat (repetitions iterations) := by
  rw [perform_repeatTrials] at h
  match htrials : (rig.trials space (repetitions iterations) s pattern).perform w with
  | (.error (.failed e), v) =>
    rw [htrials] at h
    cases h
    cases hfailed
  | (.error (.halted reason), v) =>
    rw [htrials] at h
    cases h
  | (.ok results, v) =>
    have hlength : results.length = repetitions iterations :=
      length_of_trials (congrArg Prod.fst htrials)
    rw [htrials] at h
    cases hrow : Row.ofTrials s rig.metric results with
    | error reason =>
      simp only [hrow] at h
      cases h
    | ok mean =>
      simp only [hrow] at h
      cases h
      rw [Row.trials_of_ofTrials hrow, hlength]

end Rig

/-- The rows that a run reports average as many trials as its configuration asks for, those of
failures apart. -/
theorem Benchmark.trials_of_mem_rows {host : Host σ} {b : Benchmark} {suites : Suites} {w : σ}
    {row : Row} (hiterations : b.config.iterations ≠ 0)
    (hrow : row ∈ (b.events host suites w).filterMap Event.row?) (hfailed : row.failed = false) :
    row.trials = b.config.iterations := by
  rw [rows_eq, List.mem_filterMap] at hrow
  obtain ⟨rep, -, hrep⟩ := hrow
  rw [rowOf?] at hrep
  cases hresult : (b.resultOf host rep).1 with
  | error stop =>
    rw [hresult] at hrep
    cases hrep
  | ok result =>
    rw [hresult] at hrep
    obtain rfl : result.1 = row := Option.some.inj hrep
    have htrials : result.1.trials = UInt64.ofNat (Rig.repetitions b.config.iterations) :=
      Rig.trials_of_repeatTrials hresult hfailed
    have hpos : 0 < b.config.iterations.toNat := by
      rw [Nat.pos_iff_ne_zero]
      intro hzero
      exact hiterations (UInt64.toNat_inj.mp hzero)
    have hrepetitions : Rig.repetitions b.config.iterations = b.config.iterations.toNat :=
      Nat.max_eq_right hpos
    rw [htrials, hrepetitions, UInt64.ofNat_toNat]

end AccessBench
