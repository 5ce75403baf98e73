import AccessBench.Proofs.Trial.Repetition

/-!
Trials in surroundings that hold more than a rig needs. When the calls on a rig are those on another
one, seen through a view of its states, then so are whole trials.
-/

namespace AccessBench

variable {σ σ' : Type} {view : σ → σ'}

theorem projects_visitAll {visit : Nat → Action σ Unit} {visit' : Nat → Action σ' Unit}
    (h : ∀ i, (visit i).Projects view (visit' i)) (order : VisitOrder) :
    (visitAll visit order).Projects view (visitAll visit' order) := by
  rw [visitAll_eq_visitEach, visitAll_eq_visitEach]
  suffices hlist : ∀ indices visited,
      (visitEach visit indices visited).Projects view (visitEach visit' indices visited) from
    hlist order.toList 0
  intro indices
  induction indices with
  | nil => exact fun visited => .pure visited
  | cons i rest ih => exact fun visited => (h i).bind fun _ => ih (visited + 1)

/-- A call that is the same through the view has the same answer in the logs. -/
theorem projects_logged {α : Type} {action : Action σ α} {image : Action σ' α}
    {tracing : Action (σ × List Exchange) α} {tracingImage : Action (σ' × List Exchange) α}
    {exchange : Except Stop α → Exchange} (h : action.Projects view image)
    (hp : ∀ w log, tracing.perform (w, log) =
      ((action.perform w).1, (action.perform w).2, log ++ [exchange (action.perform w).1]))
    (hq : ∀ w log, tracingImage.perform (w, log) =
      ((image.perform w).1, (image.perform w).2, log ++ [exchange (image.perform w).1])) :
    tracing.Projects (Prod.map view id) tracingImage := by
  intro w
  change tracingImage.perform (view w.1, w.2) = _
  rw [hq, h w.1]
  change _ = ((tracing.perform (w.1, w.2)).1, Prod.map view id (tracing.perform (w.1, w.2)).2)
  rw [hp]
  rfl

namespace Rig

/-- Every call on the second rig is the call on the first one, seen through the view. -/
structure Projects (view : σ → σ') (rig : Rig σ) (image : Rig σ') : Prop where
  metric : image.metric = rig.metric
  prepare : ∀ s w, image.prepare s (view w) = view (rig.prepare s w)
  acquire : ∀ s, (rig.acquire s).Projects view (image.acquire s)
  units : ∀ w, image.units (view w) = rig.units w
  touch : ∀ i access, (rig.touch i access).Projects view (image.touch i access)
  rewind : rig.rewind.Projects view image.rewind
  release : ∀ w, image.release (view w) = view (rig.release w)
  startCounter : ∀ w, image.startCounter (view w) = view (rig.startCounter w)
  sample : rig.sample.Projects view image.sample
  record : ∀ bytes w, image.record bytes (view w) = view (rig.record bytes w)
  clock : ∀ w, image.clock (view w) = ((rig.clock w).1, view (rig.clock w).2)

namespace Projects

variable {rig : Rig σ} {image : Rig σ'} (h : rig.Projects view image)

include h

theorem warmUp (units : Nat) (access : Access) :
    (rig.warmUp units access).Projects view (image.warmUp units access) := by
  have hvisit : ∀ i, (rig.warmVisit access i).Projects view (image.warmVisit access i) :=
    fun i => (h.touch i access).bind fun _ => .pure ()
  exact (projects_visitAll hvisit _).bind fun _ => h.rewind

theorem measure (units : Nat) (pattern : AccessPattern) (access : Access) :
    (rig.measure units pattern access).Projects view (image.measure units pattern access) := by
  have hstart : (Action.update fun w => ((), rig.startCounter w)).Projects view
      (Action.update fun w => ((), image.startCounter w)) :=
    .update fun w => by rw [h.startCounter]
  have hrecord (moved : UInt64) : (Action.update fun w => ((), rig.record moved w)).Projects view
      (Action.update fun w => ((), image.record moved w)) :=
    .update fun w => by rw [h.record]
  have hvisit : ∀ i, (rig.timedVisit access i).Projects view (image.timedVisit access i) :=
    fun i => (h.touch i access).bind hrecord
  have hclock : (Action.update rig.clock).Projects view (Action.update image.clock) :=
    .update h.clock
  refine hstart.bind fun _ => h.sample.bind fun _ => hclock.bind fun _ => ?_
  refine (projects_visitAll hvisit _).bind fun _ => hclock.bind fun _ => ?_
  exact h.sample.bind fun _ => .pure _

theorem session (s : Scenario) (pattern : AccessPattern) (units : Nat) :
    (rig.session s pattern units).Projects view (image.session s pattern units) := by
  unfold Rig.session
  split
  · exact (h.warmUp units s.access).bind fun _ => h.measure units pattern s.access
  · exact h.measure units pattern s.access

theorem measureRegion (s : Scenario) (pattern : AccessPattern) :
    (rig.measureRegion s pattern).Projects view (image.measureRegion s pattern) := by
  have hunits : rig.regionUnits.Projects view image.regionUnits := by
    intro w
    change ((image.units (view w)).mapError _, view w) = _
    rw [h.units]
    rfl
  exact hunits.bind fun units =>
    Action.Projects.bind (.ofAnswer _) fun _ => h.session s pattern units

theorem trial (s : Scenario) (pattern : AccessPattern) :
    (rig.trial s pattern).Projects view (image.trial s pattern) := by
  have hprepare : (Action.update fun w => ((), rig.prepare s w)).Projects view
      (Action.update fun w => ((), image.prepare s w)) :=
    .update fun w => by rw [h.prepare]
  exact hprepare.bind fun _ => (h.acquire s).bind fun _ =>
    (h.measureRegion s pattern).cleanUp h.release

theorem trialsFrom (s : Scenario) (pattern : AccessPattern) (n : Nat) (done : List Trial) :
    Action.Projects view (rig.trialsFrom s pattern n done) (image.trialsFrom s pattern n done) := by
  induction n generalizing done with
  | zero => exact fun _ => rfl
  | succ n ih =>
    intro w
    change image.trialsFrom s pattern (n + 1) done (view w) =
      ((rig.trialsFrom s pattern (n + 1) done w).1,
        view (rig.trialsFrom s pattern (n + 1) done w).2)
    rw [Rig.trialsFrom, Rig.trialsFrom, h.trial s pattern w]
    rcases (rig.trial s pattern).perform w with ⟨stop | result, v⟩
    · rfl
    · exact ih (result :: done) v

theorem repeatTrials (space : AddressSpace) (iterations : UInt64) (s : Scenario)
    (pattern : AccessPattern) :
    (rig.repeatTrials space iterations s pattern).Projects view
      (image.repeatTrials space iterations s pattern) := by
  intro w
  have htrials : (rig.trials space (repetitions iterations) s pattern).Projects view
      (image.trials space (repetitions iterations) s pattern) :=
    Action.Projects.bind (.ofAnswer _) fun _ => h.trialsFrom s pattern _ []
  rw [perform_repeatTrials, perform_repeatTrials, htrials w, h.metric]
  rcases (rig.trials space (repetitions iterations) s pattern).perform w with
    ⟨(e | reason) | results, v⟩
  · rfl
  · rfl
  · rfl

/-- Through the view the rigs exchange the same. -/
theorem traced : rig.traced.Projects (Prod.map view id) image.traced where
  metric := h.metric
  prepare := fun s w => Prod.ext (h.prepare s w.1) rfl
  acquire := fun s => projects_logged (h.acquire s) (fun _ _ => rfl) fun _ _ => rfl
  units := fun w => h.units w.1
  touch := fun i access => projects_logged (h.touch i access) (fun _ _ => rfl) fun _ _ => rfl
  rewind := projects_logged h.rewind (fun _ _ => rfl) fun _ _ => rfl
  release := fun w => Prod.ext (h.release w.1) rfl
  startCounter := fun w => Prod.ext (h.startCounter w.1) rfl
  sample := projects_logged h.sample (fun _ _ => rfl) fun _ _ => rfl
  record := fun bytes w => Prod.ext (h.record bytes w.1) rfl
  clock := fun w => by
    change ((image.clock (view w.1)).1, (image.clock (view w.1)).2,
      w.2 ++ [.clock (image.clock (view w.1)).1]) = _
    rw [h.clock]
    rfl

end Projects

/-- The rig with a log of the states around each touch. The log begins anew where the counter is
started, so that it tells of a timed pass. -/
def watched (rig : Rig σ) : Rig (σ × List (σ × σ)) where
  metric := rig.metric
  prepare := fun s w => (rig.prepare s w.1, w.2)
  acquire := fun s w =>
    let (answer, v) := (rig.acquire s).perform w.1
    (answer, v, w.2)
  units := fun w => rig.units w.1
  touch := fun index access w =>
    let (answer, v) := (rig.touch index access).perform w.1
    (answer, v, w.2 ++ [(w.1, v)])
  rewind := fun w =>
    let (answer, v) := rig.rewind.perform w.1
    (answer, v, w.2)
  release := fun w => (rig.release w.1, w.2)
  startCounter := fun w => (rig.startCounter w.1, [])
  sample := fun w =>
    let (answer, v) := rig.sample.perform w.1
    (answer, v, w.2)
  record := fun bytes w => (rig.record bytes w.1, w.2)
  clock := fun w =>
    let (reading, v) := rig.clock w.1
    (reading, v, w.2)

theorem projects_watched (rig : Rig σ) : rig.watched.Projects Prod.fst rig where
  metric := rfl
  prepare := fun _ _ => rfl
  acquire := fun _ _ => rfl
  units := fun _ => rfl
  touch := fun _ _ _ => rfl
  rewind := fun _ => rfl
  release := fun _ => rfl
  startCounter := fun _ => rfl
  sample := fun _ => rfl
  record := fun _ _ => rfl
  clock := fun _ => rfl

end Rig

end AccessBench
