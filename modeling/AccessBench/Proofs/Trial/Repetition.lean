import AccessBench.Machine
import AccessBench.Proofs.Row.Mean
import AccessBench.Proofs.Trial.Protocol
import AccessBench.Trial.Scripted

/-!
The repetition of trials. The trials of a scenario follow one another from state to state; the first
that fails makes the row of the scenario a blank one, and otherwise all of them are averaged. It
halts without room for the list of the trials, with a trial that halts, and with trials that do not
add up.
-/

namespace AccessBench

namespace Rig

variable {σ : Type} (rig : Rig σ) (s : Scenario) (pattern : AccessPattern)

/-- The state after so many trials, one from the end of the other. -/
def reached (w : σ) : Nat → σ
  | 0 => w
  | n + 1 => ((rig.trial s pattern).perform (reached w n)).2

/-- What comes of the trial after so many others. -/
def outcome (w : σ) (n : Nat) : Except Stop Trial :=
  ((rig.trial s pattern).perform (rig.reached s pattern w n)).1

theorem perform_trial_reached (w : σ) (n : Nat) :
    (rig.trial s pattern).perform (rig.reached s pattern w n) =
      (rig.outcome s pattern w n, rig.reached s pattern w (n + 1)) := rfl

variable {rig s pattern}

theorem trialsFrom_of_ok {w : σ} {n : Nat} {ts : List Trial} (k : Nat) (done : List Trial)
    (h : (List.range n).map (fun i => rig.outcome s pattern w (k + i)) = ts.map .ok) :
    rig.trialsFrom s pattern n done (rig.reached s pattern w k) =
      (.ok (done.reverse ++ ts), rig.reached s pattern w (k + n)) := by
  -- `k` trials are done: the induction is on those that are left
  induction n generalizing k done ts with
  | zero =>
    obtain rfl : ts = [] := by simpa using h.symm
    simp [trialsFrom]
  | succ n ih =>
    rw [List.range_succ_eq_map, List.map_cons, List.map_map] at h
    cases ts with
    | nil => cases h
    | cons t ts =>
      obtain ⟨hhead, htail⟩ := List.cons_eq_cons.mp h
      have hrest : (List.range n).map (fun i => rig.outcome s pattern w (k + 1 + i)) =
          ts.map .ok := by
        rw [← htail]
        apply List.map_congr_left
        intro i _
        simp only [Function.comp_apply, Nat.succ_eq_add_one, Nat.add_assoc, Nat.add_comm 1]
      rw [trialsFrom, perform_trial_reached]
      rw [Nat.add_zero] at hhead
      rw [hhead]
      simp only [ih (k + 1) (t :: done) hrest, List.reverse_cons, List.append_assoc,
        List.singleton_append, Nat.add_assoc, Nat.add_comm 1]

theorem trialsFrom_of_stop {w : σ} {n j : Nat} {stop : Stop} (k : Nat) (done : List Trial)
    (hj : j < n) (hok : ∀ i < j, ∃ t, rig.outcome s pattern w (k + i) = .ok t)
    (hstop : rig.outcome s pattern w (k + j) = .error stop) :
    rig.trialsFrom s pattern n done (rig.reached s pattern w k) =
      (.error stop, rig.reached s pattern w (k + (j + 1))) := by
  induction j generalizing k done n with
  | zero =>
    obtain ⟨m, rfl⟩ := Nat.exists_eq_succ_of_ne_zero (Nat.ne_of_gt hj)
    rw [trialsFrom, perform_trial_reached]
    rw [Nat.add_zero] at hstop
    rw [hstop]
  | succ j ih =>
    obtain ⟨m, rfl⟩ := Nat.exists_eq_succ_of_ne_zero (Nat.ne_of_gt (Nat.zero_lt_of_lt hj))
    obtain ⟨t, ht⟩ := hok 0 (Nat.succ_pos j)
    rw [trialsFrom, perform_trial_reached]
    rw [Nat.add_zero] at ht
    rw [ht]
    have hnext := ih (k + 1) (t :: done) (Nat.lt_of_succ_lt_succ hj)
      (fun i hi => by
        obtain ⟨u, hu⟩ := hok (i + 1) (Nat.succ_lt_succ hi)
        exact ⟨u, by rw [← hu]; congr 1; omega⟩)
      (by rw [← hstop]; congr 1; omega)
    rw [show k + (j + 1 + 1) = k + 1 + (j + 1) by omega]
    exact hnext

variable {space : AddressSpace}

/-- Room for the list of all trials is what a repetition needs before the first one. -/
theorem perform_trials {count : Nat} (w : σ) (h : space.obtain (trialBytes * count) = .ok ()) :
    (rig.trials space count s pattern).perform w = rig.trialsFrom s pattern count [] w := by
  rw [trials, Action.perform_bind, Action.perform_ofHalting, h]
  rfl

theorem perform_trials_without_room {count : Nat} (w : σ) {reason : Halt}
    (h : space.obtain (trialBytes * count) = .error reason) :
    (rig.trials space count s pattern).perform w = (.error (.halted reason), w) := by
  rw [trials, Action.perform_bind, Action.perform_ofHalting, h]
  rfl

end Rig

namespace Row

def blank (s : Scenario) (metric : Metric) : Row where
  name := s.name
  sizeBytes := s.size
  blockSize := s.unit
  metric := metric
  duration := .zero
  auxCount := 0
  visited := 0
  throughput := 0.0
  perUnit := 0.0
  trials := 0
  clamped := false
  failed := true

theorem throughputOf_zero (bytes : UInt64) : throughputOf bytes .zero = 0.0 := by
  have hzero : ¬ Duration.zero.toSeconds > 0.0 := by decide
  rw [throughputOf, if_neg hzero]

theorem perUnitOf_zero (d : Duration) : perUnitOf d 0 = 0.0 := by
  rw [perUnitOf, if_neg (by decide)]

/-- Neither rate divides by the time or the count of a row without trials. -/
theorem failure_eq_blank (s : Scenario) (metric : Metric) : failure s metric = blank s metric := by
  cases metric <;> simp [failure, ofMeans, blank, throughputOf_zero, perUnitOf_zero]

theorem failed_of_ofTrials {s : Scenario} {metric : Metric} {ts : List Trial} {row : Row}
    (hne : ts ≠ []) (h : ofTrials s metric ts = .ok row) : row.failed = false := by
  obtain ⟨_, _, _, -, -, -, rfl⟩ := (ofTrials_eq_ok_iff hne).mp h
  rfl

end Row

namespace Exchange

theorem prepared?_stopping (stop : Stop) (e : Exchange) :
    (e.stopping stop).prepared? = e.prepared? := by
  cases e <;> rfl

theorem Cut.filterMap_prepared? {plan log : List Exchange} {stop : Option Stop}
    (h : Cut plan log stop) (hplan : ∀ e ∈ plan, e.prepared? = none) :
    log.filterMap prepared? = [] := by
  induction h with
  | done => rfl
  | next he _ ih =>
    obtain ⟨hhead, htail⟩ := List.forall_mem_cons.mp hplan
    rw [List.filterMap_cons_none hhead, ih htail]
  | @stopped e _ stop he =>
    have hhead : (e.stopping stop).prepared? = none := by
      rw [prepared?_stopping]
      exact hplan e (by simp)
    rw [List.filterMap_cons_none hhead, List.filterMap_nil]

theorem filterMap_prepared?_around (s : Scenario) {log : List Exchange}
    (h : log.filterMap prepared? = []) :
    ([prepare s, acquire s (.ok ())] ++ log ++ [release]).filterMap prepared? = [s] := by
  rw [List.filterMap_append, List.filterMap_append, h]
  rfl

end Exchange

theorem Readings.prepared?_plan (s : Scenario) (pattern : AccessPattern) (r : Readings) :
    ∀ e ∈ r.plan s pattern, e.prepared? = none := by
  intro e he
  simp only [plan, warmUp, measurement, timing, List.mem_append, List.mem_flatMap, List.mem_cons,
    List.not_mem_nil, or_false] at he
  rcases he with hwarm | ((rfl | rfl | rfl) | ⟨visit, -, rfl | rfl⟩) | rfl | rfl
  · split at hwarm
    · simp only [warming, List.mem_append, List.mem_flatMap, List.mem_cons, List.not_mem_nil,
        or_false] at hwarm
      rcases hwarm with ⟨visit, -, rfl⟩ | rfl <;> rfl
    · cases hwarm
  all_goals rfl

/-- Whatever comes of a trial, it prepares once, for its own scenario. -/
theorem TrialLog.filterMap_prepared? {s : Scenario} {pattern : AccessPattern}
    {units : Except Halt Nat} {log : List Exchange} {result : Except Stop Trial}
    (h : TrialLog s pattern units log result) : log.filterMap Exchange.prepared? = [s] := by
  cases h with
  | refused | uncounted | unfit => rfl
  | stopped n r log stop hn hc hcover hcut =>
    exact Exchange.filterMap_prepared?_around s (hcut.filterMap_prepared? (r.prepared?_plan s pattern))
  | completed n r hn hc hcover hnone =>
    exact Exchange.filterMap_prepared?_around s
      (List.filterMap_eq_nil_iff.mpr (r.prepared?_plan s pattern))

namespace Rig

variable {σ : Type} (rig : Rig σ) (s : Scenario) (pattern : AccessPattern) (w : σ)

/-- A traced repetition goes through the states of the rig, and its log is made of the logs of the
trials, one for each that is run. -/
theorem reached_traced (n : Nat) :
    ∃ log, rig.traced.reached s pattern (w, []) n = (rig.reached s pattern w n, log) ∧
      log.filterMap Exchange.prepared? = List.replicate n s := by
  induction n with
  | zero => exact ⟨[], rfl, rfl⟩
  | succ n ih =>
    obtain ⟨log, hlog, hcount⟩ := ih
    obtain ⟨added, hadded, htold⟩ := Traced.trial rig (rig.reached s pattern w n) s pattern log
    refine ⟨log ++ added, ?_, ?_⟩
    · rw [reached, hlog, hadded]
      rfl
    · rw [List.filterMap_append, hcount, htold.filterMap_prepared?, List.replicate_succ']

theorem outcome_traced (n : Nat) :
    rig.traced.outcome s pattern (w, []) n = rig.outcome s pattern w n := by
  obtain ⟨log, hlog, -⟩ := rig.reached_traced s pattern w n
  obtain ⟨added, hadded, -⟩ := Traced.trial rig (rig.reached s pattern w n) s pattern log
  rw [outcome, hlog, hadded]
  rfl

theorem perform_repeatTrials (space : AddressSpace) (iterations : UInt64) :
    (rig.repeatTrials space iterations s pattern).perform w =
      match (rig.trials space (repetitions iterations) s pattern).perform w with
      | (.error (.failed e), v) => (.ok (Row.failure s rig.metric, [failureLine s e]), v)
      | (.error (.halted reason), v) => (.error (.halted reason), v)
      | (.ok results, v) =>
        (((Row.ofTrials s rig.metric results).map fun row => (row, [])).mapError .halted, v) := rfl

theorem repetitions_lt (iterations : UInt64) : repetitions iterations < UInt64.size :=
  Nat.max_lt.mpr ⟨by decide, iterations.toNat_lt⟩

variable {rig s pattern w} {space : AddressSpace} {iterations : UInt64}

theorem length_of_outcomes {ts : List Trial}
    (hts : (List.range (repetitions iterations)).map (rig.outcome s pattern w) = ts.map .ok) :
    ts.length = repetitions iterations ∧ ts ≠ [] := by
  have hlength : ts.length = repetitions iterations := by
    rw [← List.length_map, ← hts, List.length_map, List.length_range]
  have hpos : 0 < repetitions iterations :=
    Nat.lt_of_lt_of_le Nat.one_pos (Nat.le_max_left 1 iterations.toNat)
  exact ⟨hlength, List.length_pos_iff.mp (hlength ▸ hpos)⟩

/-- So many results make a row, since there is always one of them and never more than a word. -/
theorem ofTrials_of_outcomes {ts : List Trial}
    (hts : (List.range (repetitions iterations)).map (rig.outcome s pattern w) = ts.map .ok)
    (hsum : Trial.Summable ts) :
    ∃ row, Row.ofTrials s rig.metric ts = .ok row ∧ row.failed = false ∧
      row.trials.toNat = repetitions iterations ∧ row.clamped = ts.any (·.clamped) := by
  obtain ⟨hlength, hne⟩ := length_of_outcomes hts
  obtain ⟨row, hrow⟩ := Row.exists_ofTrials s rig.metric hsum
  have haverages := Row.averages_of_ofTrials hne hrow
  refine ⟨row, hrow, Row.failed_of_ofTrials hne hrow, ?_, haverages.clamped⟩
  rw [haverages.trials, hlength]
  exact UInt64.toNat_ofNat_of_lt' (repetitions_lt iterations)

theorem repeatTrials_without_list {reason : Halt}
    (hroom : space.obtain (trialBytes * repetitions iterations) = .error reason) :
    (rig.repeatTrials space iterations s pattern).perform w = (.error (.halted reason), w) := by
  rw [perform_repeatTrials, perform_trials_without_room w hroom]

section

variable (hroom : space.obtain (trialBytes * repetitions iterations) = .ok ())

include hroom

theorem perform_trials_of_stop {j : Nat} {stop : Stop} (hj : j < repetitions iterations)
    (hok : ∀ i < j, ∃ t, rig.outcome s pattern w i = .ok t)
    (hstop : rig.outcome s pattern w j = .error stop) :
    (rig.trials space (repetitions iterations) s pattern).perform w =
      (.error stop, rig.reached s pattern w (j + 1)) := by
  have hrun := trialsFrom_of_stop 0 [] hj (by simpa using hok) (by simpa using hstop)
  rw [perform_trials w hroom, ← Nat.zero_add (j + 1)]
  exact hrun

theorem repeatTrials_of_failure {j : Nat} {e : BenchError} (hj : j < repetitions iterations)
    (hok : ∀ i < j, ∃ t, rig.outcome s pattern w i = .ok t)
    (hfail : rig.outcome s pattern w j = .error (.failed e)) :
    (rig.repeatTrials space iterations s pattern).perform w =
      (.ok (Row.blank s rig.metric, [failureLine s e]), rig.reached s pattern w (j + 1)) := by
  rw [perform_repeatTrials, perform_trials_of_stop hroom hj hok hfail, ← Row.failure_eq_blank]

theorem repeatTrials_of_halt {j : Nat} {reason : Halt} (hj : j < repetitions iterations)
    (hok : ∀ i < j, ∃ t, rig.outcome s pattern w i = .ok t)
    (hhalt : rig.outcome s pattern w j = .error (.halted reason)) :
    (rig.repeatTrials space iterations s pattern).perform w =
      (.error (.halted reason), rig.reached s pattern w (j + 1)) := by
  rw [perform_repeatTrials, perform_trials_of_stop hroom hj hok hhalt]

theorem repeatTrials_of_ok {ts : List Trial}
    (hts : (List.range (repetitions iterations)).map (rig.outcome s pattern w) = ts.map .ok) :
    (rig.repeatTrials space iterations s pattern).perform w =
      (((Row.ofTrials s rig.metric ts).map fun row => (row, [])).mapError .halted,
        rig.reached s pattern w (repetitions iterations)) := by
  have hrun : (rig.trials space (repetitions iterations) s pattern).perform w =
      (.ok ts, rig.reached s pattern w (repetitions iterations)) := by
    have hall := trialsFrom_of_ok 0 [] (by simpa using hts)
    rw [perform_trials w hroom]
    simpa [reached] using hall
  rw [perform_repeatTrials, hrun]

theorem repeatTrials_of_row {ts : List Trial} {row : Row}
    (hts : (List.range (repetitions iterations)).map (rig.outcome s pattern w) = ts.map .ok)
    (hrow : Row.ofTrials s rig.metric ts = .ok row) :
    (rig.repeatTrials space iterations s pattern).perform w =
      (.ok (row, []), rig.reached s pattern w (repetitions iterations)) := by
  rw [repeatTrials_of_ok hroom hts, hrow]
  rfl

theorem repeatTrials_of_overflow {ts : List Trial}
    (hts : (List.range (repetitions iterations)).map (rig.outcome s pattern w) = ts.map .ok)
    (hsum : ¬ Trial.Summable ts) :
    ∃ reason, Row.ofTrials s rig.metric ts = .error reason ∧
      (rig.repeatTrials space iterations s pattern).perform w =
        (.error (.halted reason), rig.reached s pattern w (repetitions iterations)) := by
  cases hrow : Row.ofTrials s rig.metric ts with
  | ok row => exact absurd (Row.exists_ofTrials_iff.mp ⟨row, hrow⟩) hsum
  | error reason =>
    refine ⟨reason, rfl, ?_⟩
    rw [repeatTrials_of_ok hroom hts, hrow]
    rfl

theorem repeatTrials_traced_of_failure {j : Nat} {e : BenchError}
    (hj : j < repetitions iterations) (hok : ∀ i < j, ∃ t, rig.outcome s pattern w i = .ok t)
    (hfail : rig.outcome s pattern w j = .error (.failed e)) :
    ∃ log, (rig.traced.repeatTrials space iterations s pattern).perform (w, []) =
        (.ok (Row.blank s rig.metric, [failureLine s e]), rig.reached s pattern w (j + 1), log) ∧
      log.filterMap Exchange.prepared? = List.replicate (j + 1) s := by
  obtain ⟨log, hlog, hcount⟩ := rig.reached_traced s pattern w (j + 1)
  refine ⟨log, ?_, hcount⟩
  rw [← hlog]
  apply repeatTrials_of_failure hroom hj
  · intro i hi
    rw [outcome_traced]
    exact hok i hi
  · rw [outcome_traced]
    exact hfail

theorem repeatTrials_traced_of_row {ts : List Trial} {row : Row}
    (hts : (List.range (repetitions iterations)).map (rig.outcome s pattern w) = ts.map .ok)
    (hrow : Row.ofTrials s rig.metric ts = .ok row) :
    ∃ log, (rig.traced.repeatTrials space iterations s pattern).perform (w, []) =
        (.ok (row, []), rig.reached s pattern w (repetitions iterations), log) ∧
      log.filterMap Exchange.prepared? = List.replicate (repetitions iterations) s := by
  obtain ⟨log, hlog, hcount⟩ := rig.reached_traced s pattern w (repetitions iterations)
  refine ⟨log, ?_, hcount⟩
  rw [← hlog]
  apply repeatTrials_of_row hroom
  · rw [funext (rig.outcome_traced s pattern w)]
    exact hts
  · exact hrow

end

end Rig

/-- With room for the list of the trials, the first trial that fails is the last one that is
started, and the row is blank whatever came before it; without one, all trials are started and
averaged. A trial that halts ends the program, and so do trials that do not add up. Without room no
trial is started. -/
theorem repeatTrials_controller {σ : Type} (rig : Rig σ) (space : AddressSpace)
    (iterations : UInt64) (s : Scenario) (pattern : AccessPattern) (w : σ) :
    let count := Rig.repetitions iterations
    let ended := (rig.repeatTrials space iterations s pattern).perform w
    let traced := (rig.traced.repeatTrials space iterations s pattern).perform (w, [])
    (space.obtain (Rig.trialBytes * count) = .ok () →
      (∀ j e, j < count → (∀ i < j, ∃ t, rig.outcome s pattern w i = .ok t) →
        rig.outcome s pattern w j = .error (.failed e) →
        ended = (.ok (Row.blank s rig.metric, [s.name ++ ": " ++ e.message]),
          rig.reached s pattern w (j + 1)) ∧
        ∃ log, traced = (ended.1, ended.2, log) ∧
          log.filterMap Exchange.prepared? = List.replicate (j + 1) s) ∧
      (∀ ts, (List.range count).map (rig.outcome s pattern w) = ts.map .ok →
        Trial.Summable ts →
        ∃ row, Row.ofTrials s rig.metric ts = .ok row ∧
          ended = (.ok (row, []), rig.reached s pattern w count) ∧
          row.failed = false ∧ row.trials.toNat = count ∧ row.clamped = ts.any (·.clamped) ∧
          ∃ log, traced = (ended.1, ended.2, log) ∧
            log.filterMap Exchange.prepared? = List.replicate count s) ∧
      (∀ ts, (List.range count).map (rig.outcome s pattern w) = ts.map .ok →
        ¬ Trial.Summable ts →
        ∃ reason, Row.ofTrials s rig.metric ts = .error reason ∧
          ended = (.error (.halted reason), rig.reached s pattern w count)) ∧
      ∀ j reason, j < count → (∀ i < j, ∃ t, rig.outcome s pattern w i = .ok t) →
        rig.outcome s pattern w j = .error (.halted reason) →
        ended = (.error (.halted reason), rig.reached s pattern w (j + 1))) ∧
    (∀ reason, space.obtain (Rig.trialBytes * count) = .error reason →
      ended = (.error (.halted reason), w) ∧ traced = (ended.1, ended.2, [])) ∧
    ∀ platform path cache m, (Machine.fileRig platform path cache).prepare s m =
      if s.dropCache then { m with store := (cache.drop (some path) m.store).2 } else m := by
  intro count ended traced
  refine ⟨fun hroom => ⟨?_, ?_, ?_, ?_⟩, ?_, fun _ _ _ _ => rfl⟩
  · intro j e hj hok hfail
    have hended : ended = (.ok (Row.blank s rig.metric, [Rig.failureLine s e]),
        rig.reached s pattern w (j + 1)) := Rig.repeatTrials_of_failure hroom hj hok hfail
    refine ⟨hended, ?_⟩
    rw [hended]
    exact Rig.repeatTrials_traced_of_failure hroom hj hok hfail
  · intro ts hts hsum
    obtain ⟨row, hrow, hfailed, htrials, hclamped⟩ := Rig.ofTrials_of_outcomes hts hsum
    have hended : ended = (.ok (row, []), rig.reached s pattern w count) :=
      Rig.repeatTrials_of_row hroom hts hrow
    refine ⟨row, hrow, hended, hfailed, htrials, hclamped, ?_⟩
    rw [hended]
    exact Rig.repeatTrials_traced_of_row hroom hts hrow
  · intro ts hts hsum
    exact Rig.repeatTrials_of_overflow hroom hts hsum
  · intro j reason hj hok hhalt
    exact Rig.repeatTrials_of_halt hroom hj hok hhalt
  · intro reason hroom
    have hended : ended = (.error (.halted reason), w) := Rig.repeatTrials_without_list hroom
    exact ⟨hended, by rw [hended]; exact Rig.repeatTrials_without_list hroom⟩

def twoPages : Scenario := ⟨"two_pages", .sequential, .read, 8192, 4096, false⟩

/-- A script for two pages that refuses one of the regions asked for. -/
def refusingScript (refused : Nat) : Script where
  regionSize := 8192
  regionUnit := 4096
  failingAcquire := some refused

theorem repeatTrials_second_refused :
    (AddressSpace.limited gib).obtain (Rig.trialBytes * Rig.repetitions 3) = .ok () ∧
      ((refusingScript 2).rig.repeatTrials (.limited gib) 3 twoPages .sequential).perform {} =
        (.ok (Row.blank twoPages .pageFaults,
            [twoPages.name ++ ": " ++ (Script.fault "acquire" 2).message]),
          (refusingScript 2).rig.reached twoPages .sequential {} 2) := by
  have hroom : (AddressSpace.limited gib).obtain (Rig.trialBytes * Rig.repetitions 3) = .ok () := by
    decide
  have hfirst : ∀ i < 1, ∃ t,
      (refusingScript 2).rig.outcome twoPages .sequential {} i = .ok t := by
    intro i hi
    obtain rfl : i = 0 := by omega
    exact ⟨{ duration := .zero, auxCount := 2, visited := 2 }, rfl⟩
  have hcontrol := repeatTrials_controller (refusingScript 2).rig (.limited gib) 3 twoPages
    .sequential {}
  exact ⟨hroom, ((hcontrol.1 hroom).1 1 _ (by decide) hfirst rfl).1⟩

/-- The first trial would be refused its region, which makes a blank row of any scenario whose
trials there is room to list. Here there is none, whatever the system grants: no trial is started
and there is no row. -/
theorem repeatTrials_without_room :
    (refusingScript 1).rig.outcome twoPages .sequential {} 0 =
        .error (.failed (Script.fault "acquire" 1)) ∧
      ∀ space, ((refusingScript 1).rig.repeatTrials space 0x8000000000000000 twoPages
        .sequential).perform {} = (.error (.halted .oversized), {}) :=
  ⟨rfl, fun _ => Rig.repeatTrials_without_list rfl⟩

end AccessBench
