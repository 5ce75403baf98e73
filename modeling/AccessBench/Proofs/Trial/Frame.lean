import AccessBench.Proofs.Trial.Repetition

/-!
Properties of the surroundings that trials preserve. When every call of a scenario on a rig
preserves a property, then any number of trials does, wherever they stop.
-/

namespace AccessBench

variable {σ : Type} {inv : σ → Prop}

theorem preserves_visitAll {visit : Nat → Action σ Unit} (h : ∀ i, (visit i).Preserves inv)
    (order : VisitOrder) : (visitAll visit order).Preserves inv := by
  rw [visitAll_eq_visitEach]
  suffices hlist : ∀ indices visited, (visitEach visit indices visited).Preserves inv from
    hlist order.toList 0
  intro indices
  induction indices with
  | nil => exact fun visited => .pure visited
  | cons i rest ih => exact fun visited => (h i).bind fun _ => ih (visited + 1)

namespace Rig

/-- Every call that a trial of the scenario makes on the rig preserves the property. -/
structure Preserves (inv : σ → Prop) (rig : Rig σ) (s : Scenario) : Prop where
  prepare : ∀ w, inv w → inv (rig.prepare s w)
  acquire : (rig.acquire s).Preserves inv
  touch : ∀ i, (rig.touch i s.access).Preserves inv
  rewind : rig.rewind.Preserves inv
  release : ∀ w, inv w → inv (rig.release w)
  startCounter : ∀ w, inv w → inv (rig.startCounter w)
  sample : rig.sample.Preserves inv
  record : ∀ bytes w, inv w → inv (rig.record bytes w)
  clock : ∀ w, inv w → inv (rig.clock w).2

namespace Preserves

variable {rig : Rig σ} {s : Scenario} (h : rig.Preserves inv s)

include h

theorem warmUp (units : Nat) : (rig.warmUp units s.access).Preserves inv := by
  have hvisit : ∀ i, (rig.warmVisit s.access i).Preserves inv :=
    fun i => (h.touch i).bind fun _ => .pure ()
  exact (preserves_visitAll hvisit _).bind fun _ => h.rewind

theorem measure (units : Nat) (pattern : AccessPattern) :
    (rig.measure units pattern s.access).Preserves inv := by
  have hvisit : ∀ i, (rig.timedVisit s.access i).Preserves inv :=
    fun i => (h.touch i).bind fun moved => .update (h.record moved)
  have hclock : (Action.update rig.clock).Preserves inv := .update h.clock
  refine Action.Preserves.bind (.update h.startCounter) fun _ => h.sample.bind fun _ => ?_
  refine hclock.bind fun _ => (preserves_visitAll hvisit _).bind fun _ => ?_
  exact hclock.bind fun _ => h.sample.bind fun _ => .pure _

theorem session (pattern : AccessPattern) (units : Nat) :
    (rig.session s pattern units).Preserves inv := by
  unfold Rig.session
  split
  · exact (h.warmUp units).bind fun _ => h.measure units pattern
  · exact h.measure units pattern

theorem measureRegion (pattern : AccessPattern) :
    (rig.measureRegion s pattern).Preserves inv := by
  have hunits : rig.regionUnits.Preserves inv := fun _ hw => hw
  exact hunits.bind fun units =>
    Action.Preserves.bind (.ofAnswer _) fun _ => h.session pattern units

theorem trial (pattern : AccessPattern) : (rig.trial s pattern).Preserves inv :=
  Action.Preserves.bind (.update h.prepare) fun _ =>
    h.acquire.bind fun _ => (h.measureRegion pattern).cleanUp h.release

theorem trialsFrom (pattern : AccessPattern) (n : Nat) (done : List Trial) {w : σ} (hw : inv w) :
    inv (rig.trialsFrom s pattern n done w).2 := by
  induction n generalizing done w with
  | zero => exact hw
  | succ n ih =>
    have hone := h.trial pattern w hw
    rw [Rig.trialsFrom]
    generalize (rig.trial s pattern).perform w = outcome at hone ⊢
    obtain ⟨stop | t, v⟩ := outcome
    · exact hone
    · exact ih (t :: done) hone

theorem repeatTrials (space : AddressSpace) (iterations : UInt64) (pattern : AccessPattern) :
    (rig.repeatTrials space iterations s pattern).Preserves inv := by
  intro w hw
  have htrials : (rig.trials space (repetitions iterations) s pattern).Preserves inv :=
    Action.Preserves.bind (.ofAnswer _) fun _ _ hv => h.trialsFrom pattern _ [] hv
  have hall := htrials w hw
  rw [perform_repeatTrials]
  match (rig.trials space (repetitions iterations) s pattern).perform w, hall with
  | (.error (.failed e), v), hall => exact hall
  | (.error (.halted reason), v), hall => exact hall
  | (.ok results, v), hall => exact hall

end Preserves

end Rig

end AccessBench
