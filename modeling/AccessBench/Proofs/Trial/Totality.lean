import AccessBench.Proofs.Trial.Repetition

/-!
Repetitions that end with a row. One does so exactly when there is room for the list of its trials,
none of those that are run halts, and their times and counts add up; whichever calls fail makes no
difference.
-/

namespace AccessBench

structure Row.IsOf (s : Scenario) (metric : Metric) (row : Row) : Prop where
  name : row.name = s.name
  size : row.sizeBytes = s.size
  unit : row.blockSize = s.unit
  metric : row.metric = metric

theorem Row.isOf_failure (s : Scenario) (metric : Metric) : (failure s metric).IsOf s metric :=
  ⟨rfl, rfl, rfl, rfl⟩

theorem Row.isOf_ofTrials {s : Scenario} {metric : Metric} {ts : List Trial} {row : Row}
    (h : ofTrials s metric ts = .ok row) : row.IsOf s metric := by
  by_cases hne : ts = []
  · subst hne
    cases h
    exact ⟨rfl, rfl, rfl, rfl⟩
  · obtain ⟨_, _, _, -, -, -, rfl⟩ := (ofTrials_eq_ok_iff hne).mp h
    exact ⟨rfl, rfl, rfl, rfl⟩

namespace Rig

variable {σ : Type} {rig : Rig σ} {space : AddressSpace} {s : Scenario} {pattern : AccessPattern}
  {iterations : UInt64} {w v : σ}

theorem isOf_of_repeatTrials {row : Row} {lines : List String}
    (h : (rig.repeatTrials space iterations s pattern).perform w = (.ok (row, lines), v)) :
    row.IsOf s rig.metric := by
  rw [perform_repeatTrials] at h
  match (rig.trials space (repetitions iterations) s pattern).perform w, h with
  | (.error (.failed e), _), h =>
    cases h
    exact Row.isOf_failure s rig.metric
  | (.error (.halted _), _), h => cases h
  | (.ok results, _), h =>
    cases hrow : Row.ofTrials s rig.metric results with
    | error reason => simp [hrow, Except.map] at h
    | ok made =>
      obtain ⟨⟨rfl, -⟩, -⟩ : (made = row ∧ _) ∧ _ := by
        simpa [hrow, Except.map] using h
      exact Row.isOf_ofTrials hrow

/-- There is room for the list of the trials, none of the trials that are run halts, and if none of
them fails they add up. -/
structure Settles (rig : Rig σ) (space : AddressSpace) (iterations : UInt64) (s : Scenario)
    (pattern : AccessPattern) (w : σ) : Prop where
  room : space.obtain (trialBytes * repetitions iterations) = .ok ()
  running : ∀ j < repetitions iterations, (∀ i < j, ∃ t, rig.outcome s pattern w i = .ok t) →
    ∀ reason, rig.outcome s pattern w j ≠ .error (.halted reason)
  summable : ∀ ts, (List.range (repetitions iterations)).map (rig.outcome s pattern w) =
    ts.map .ok → Trial.Summable ts

theorem outcomes_cases (rig : Rig σ) (s : Scenario) (pattern : AccessPattern) (w : σ) (n : Nat) :
    (∃ ts : List Trial, (List.range n).map (rig.outcome s pattern w) = ts.map .ok) ∨
      ∃ j < n, (∀ i < j, ∃ t, rig.outcome s pattern w i = .ok t) ∧
        ∃ stop, rig.outcome s pattern w j = .error stop := by
  -- up to the first stop the results are collected; it stays the first one from then on
  induction n with
  | zero => exact .inl ⟨[], rfl⟩
  | succ n ih =>
    obtain ⟨ts, hts⟩ | ⟨j, hj, hok, hstop⟩ := ih
    · have hall : ∀ i < n, ∃ t, rig.outcome s pattern w i = .ok t := by
        intro i hi
        have hmem : rig.outcome s pattern w i ∈ ts.map .ok := by
          rw [← hts]
          exact List.mem_map_of_mem (List.mem_range.mpr hi)
        obtain ⟨t, -, ht⟩ := List.mem_map.mp hmem
        exact ⟨t, ht.symm⟩
      cases hlast : rig.outcome s pattern w n with
      | error stop => exact .inr ⟨n, Nat.lt_succ_self n, hall, stop, hlast⟩
      | ok t =>
        refine .inl ⟨ts ++ [t], ?_⟩
        rw [List.range_succ, List.map_append, hts, List.map_append, List.map_singleton, hlast,
          List.map_singleton]
    · exact .inr ⟨j, Nat.lt_succ_of_lt hj, hok, hstop⟩

theorem Settles.repeatTrials (h : rig.Settles space iterations s pattern w) :
    ∃ row lines v,
      (rig.repeatTrials space iterations s pattern).perform w = (.ok (row, lines), v) := by
  obtain ⟨ts, hts⟩ | ⟨j, hj, hok, stop, hstop⟩ :=
    outcomes_cases rig s pattern w (repetitions iterations)
  · obtain ⟨row, hrow, -⟩ := ofTrials_of_outcomes hts (h.summable ts hts)
    exact ⟨row, [], _, repeatTrials_of_row h.room hts hrow⟩
  · cases stop with
    | failed e => exact ⟨_, _, _, repeatTrials_of_failure h.room hj hok hstop⟩
    | halted reason => exact absurd hstop (h.running j hj hok reason)

theorem repeatTrials_of_not_settles (h : ¬ rig.Settles space iterations s pattern w) :
    ∃ reason v, (rig.repeatTrials space iterations s pattern).perform w =
      (.error (.halted reason), v) := by
  cases hroom : space.obtain (trialBytes * repetitions iterations) with
  | error reason => exact ⟨reason, w, repeatTrials_without_list hroom⟩
  | ok _ =>
    by_cases hrunning : ∀ j < repetitions iterations,
        (∀ i < j, ∃ t, rig.outcome s pattern w i = .ok t) →
          ∀ reason, rig.outcome s pattern w j ≠ .error (.halted reason)
    · have hsummable : ¬ ∀ ts, (List.range (repetitions iterations)).map
          (rig.outcome s pattern w) = ts.map .ok → Trial.Summable ts :=
        fun hsummable => h ⟨hroom, hrunning, hsummable⟩
      push Not at hsummable
      obtain ⟨ts, hts, hsum⟩ := hsummable
      obtain ⟨reason, -, hperform⟩ := repeatTrials_of_overflow hroom hts hsum
      exact ⟨reason, _, hperform⟩
    · push Not at hrunning
      obtain ⟨j, hj, hok, reason, hhalt⟩ := hrunning
      exact ⟨reason, _, repeatTrials_of_halt hroom hj hok hhalt⟩

/-- A repetition ends with a row when it settles, and otherwise halts. -/
theorem settles_iff : rig.Settles space iterations s pattern w ↔
    ∃ result v, (rig.repeatTrials space iterations s pattern).perform w = (.ok result, v) := by
  constructor
  · intro h
    obtain ⟨row, lines, v, hperform⟩ := h.repeatTrials
    exact ⟨_, v, hperform⟩
  · rintro ⟨result, v, hperform⟩
    by_contra h
    obtain ⟨reason, v', hhalt⟩ := repeatTrials_of_not_settles h
    cases hperform.symm.trans hhalt

end Rig

theorem yields_visitAll {σ : Type} {visit : Nat → Action σ Unit}
    (h : ∀ index, (visit index).Yields fun _ => True) (order : VisitOrder) :
    (visitAll visit order).Yields fun _ => True := by
  rw [visitAll_eq_visitEach]
  suffices hlist : ∀ indices visited, (visitEach visit indices visited).Yields fun _ => True from
    hlist order.toList 0
  intro indices
  induction indices with
  | nil =>
    intro visited
    exact .pure trivial
  | cons index rest ih =>
    intro visited
    rw [visitEach]
    exact (h index).bind fun _ _ => ih (visited + 1)

namespace Rig

variable {σ : Type} {rig : Rig σ} {s : Scenario}

/-- No call on the rig halts, and a region that it gives for the scenario has a count of units. -/
structure NeverHalts (rig : Rig σ) (s : Scenario) : Prop where
  acquire : ∀ w, (∃ e, ((rig.acquire s).perform w).1 = .error (.failed e)) ∨
    ((rig.acquire s).perform w).1 = .ok () ∧ ∃ n, rig.units ((rig.acquire s).perform w).2 = .ok n
  touch : ∀ index access, (rig.touch index access).Yields fun _ => True
  rewind : rig.rewind.Yields fun _ => True
  sample : rig.sample.Yields fun _ => True

theorem NeverHalts.yields_measure (h : rig.NeverHalts s) (units : Nat) (pattern : AccessPattern)
    (access : Access) :
    (rig.measure units pattern access).Yields fun _ => True := by
  have hvisit : ∀ index, (rig.timedVisit access index).Yields fun _ => True := by
    intro index
    exact (h.touch index access).bind fun _ _ => .update fun _ => trivial
  have hclock : (Action.update rig.clock).Yields fun _ => True := .update fun _ => trivial
  refine Action.Yields.bind (.update fun _ => trivial) fun _ (_ : True) => ?_
  refine h.sample.bind fun _ _ => hclock.bind fun _ _ => ?_
  refine (yields_visitAll hvisit (pattern.order units)).bind fun _ _ => ?_
  exact hclock.bind fun _ _ => h.sample.bind fun _ _ => .pure trivial

theorem NeverHalts.yields_session (h : rig.NeverHalts s) (pattern : AccessPattern) (units : Nat) :
    (rig.session s pattern units).Yields fun _ => True := by
  have hwarm : ∀ index, (rig.warmVisit s.access index).Yields fun _ => True := by
    intro index
    exact (h.touch index s.access).bind fun _ _ => .pure trivial
  unfold session
  split
  · refine Action.Yields.bind ?_ fun _ (_ : True) => h.yields_measure units pattern s.access
    exact (yields_visitAll hwarm _).bind fun _ _ => h.rewind
  · exact h.yields_measure units pattern s.access

/-- Whichever calls fail, a trial never halts. -/
theorem NeverHalts.yields_trial (h : rig.NeverHalts s) (pattern : AccessPattern) :
    (rig.trial s pattern).Yields fun _ => True := by
  refine Action.Yields.bind (.update fun _ => trivial) fun _ (_ : True) => ?_
  intro w
  rw [Action.fst_perform_bind]
  obtain ⟨e, he⟩ | ⟨hok, n, hn⟩ := h.acquire w
  · rw [he]
    exact .inl ⟨e, rfl⟩
  · -- the region has its units now: what follows is a session or a pattern that does not fit
    rw [hok]
    dsimp only
    rw [Action.perform_finally, perform_measureRegion, hn]
    cases hc : pattern.check n with
    | error e => exact .inl ⟨e, by simp [hc]⟩
    | ok _ =>
      have hsession := h.yields_session pattern n ((rig.acquire s).perform w).2
      simpa [hc] using hsession

theorem NeverHalts.outcome_ne_halted (h : rig.NeverHalts s) (pattern : AccessPattern) (w : σ)
    (n : Nat) (reason : Halt) : rig.outcome s pattern w n ≠ .error (.halted reason) := by
  intro hhalt
  obtain ⟨e, he⟩ | ⟨t, ht, -⟩ := h.yields_trial pattern (rig.reached s pattern w n)
  · cases hhalt.symm.trans he
  · cases hhalt.symm.trans ht

end Rig

end AccessBench
