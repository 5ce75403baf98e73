import AccessBench.Proofs.Pattern.Fit
import AccessBench.Proofs.Trial.Repetition

/-!
Trials that stay inside their region. A rig that refuses no unit which begins inside a region lets
every pattern that fits run through: such trials can fail, but not on account of where they go.
-/

namespace AccessBench

/-- The error tells of a traversal that does not fit its region. -/
inductive BenchError.Misfit : BenchError → Prop
  | length (expected actual : Nat) : Misfit (.patternMismatch expected actual)
  | outside (offset : Nat) : Misfit (outOfRange offset)

/-- The stop is none that tells of a traversal which does not fit. -/
def Stop.IsFit (stop : Stop) : Prop := ∀ e, stop = .failed e → ¬ e.Misfit

theorem keeps_visitEach {σ : Type} {inv : σ → Prop} {allowed : Stop → Prop}
    {visit : Nat → Action σ Unit} {indices : List Nat} (visited : UInt64)
    (h : ∀ i ∈ indices, (visit i).Keeps inv allowed) :
    (visitEach visit indices visited).Keeps inv allowed := by
  induction indices generalizing visited with
  | nil => exact .pure visited
  | cons i rest ih =>
    obtain ⟨hhead, hrest⟩ := List.forall_mem_cons.mp h
    exact hhead.bind fun _ => ih (visited + 1) hrest

namespace Rig

variable {σ : Type} {rig : Rig σ} {s : Scenario} {inside : σ → Prop}

/-- Regions for a scenario are counted as the scenario counts its units, and no visit of a unit that
begins inside is refused for being outside. -/
structure Confines (rig : Rig σ) (s : Scenario) (inside : σ → Prop) : Prop where
  acquire : ∀ w,
    match (rig.acquire s).perform w with
    | (.ok _, v) => inside v
    | (.error stop, _) => stop.IsFit
  units : ∀ w, inside w → rig.units w = .ok (unitsToCover s.size.toNat s.unit.toNat)
  touch : ∀ i access, i * s.unit.toNat < s.size.toNat →
    (rig.touch i access).Keeps inside Stop.IsFit
  rewind : rig.rewind.Keeps inside Stop.IsFit
  sample : rig.sample.Keeps inside Stop.IsFit
  startCounter : ∀ w, inside w → inside (rig.startCounter w)
  record : ∀ bytes w, inside w → inside (rig.record bytes w)
  clock : ∀ w, inside w → inside (rig.clock w).2

namespace Confines

variable (h : rig.Confines s inside)

include h

theorem keeps_warmUp {units : Nat} (hbegin : ∀ i < units, i * s.unit.toNat < s.size.toNat) :
    (rig.warmUp units s.access).Keeps inside Stop.IsFit := by
  rw [warmUp, visitAll_eq_visitEach, AccessPattern.toList_order_sequential]
  refine Action.Keeps.bind ?_ fun _ => h.rewind
  apply keeps_visitEach
  intro i hi
  exact (h.touch i s.access (hbegin i (List.mem_range.mp hi))).bind fun _ => .pure ()

theorem keeps_measure {units : Nat} {pattern : AccessPattern}
    (hbegin : ∀ i ∈ (pattern.order units).toList, i * s.unit.toNat < s.size.toNat) :
    (rig.measure units pattern s.access).Keeps inside Stop.IsFit := by
  have hvisits : (visitAll (rig.timedVisit s.access) (pattern.order units)).Keeps inside
      Stop.IsFit := by
    rw [visitAll_eq_visitEach]
    apply keeps_visitEach
    intro i hi
    exact (h.touch i s.access (hbegin i hi)).bind fun moved => .update (h.record moved)
  refine Action.Keeps.bind (.update h.startCounter) fun _ => h.sample.bind fun _ => ?_
  refine Action.Keeps.bind (.update h.clock) fun _ => hvisits.bind fun _ => ?_
  exact Action.Keeps.bind (.update h.clock) fun _ => h.sample.bind fun _ => .pure _

theorem keeps_session {units : Nat} {pattern : AccessPattern} (hfits : pattern.Fits units)
    (hbegin : ∀ i < units, i * s.unit.toNat < s.size.toNat) :
    (rig.session s pattern units).Keeps inside Stop.IsFit := by
  have hmeasure : (rig.measure units pattern s.access).Keeps inside Stop.IsFit :=
    h.keeps_measure fun i hi => hbegin i (hfits.inside i hi)
  unfold session
  split
  · exact (h.keeps_warmUp hbegin).bind fun _ => hmeasure
  · exact hmeasure

/-- A trial of a pattern that fits never ends for want of a fit, wherever it begins. -/
theorem isFit_of_trial (hunit : 0 < s.unit.toNat) {pattern : AccessPattern}
    (hfits : pattern.Fits (unitsToCover s.size.toNat s.unit.toNat)) {w : σ} {stop : Stop}
    (hstop : ((rig.trial s pattern).perform w).1 = .error stop) : stop.IsFit := by
  have hacquire := h.acquire (rig.prepare s w)
  have hsession := h.keeps_session hfits fun i hi => (lt_unitsToCover_iff hunit).mp hi
  rw [perform_trial] at hstop
  match (rig.acquire s).perform (rig.prepare s w), hacquire, hstop with
  | (.error reason, v), hacquire, hstop =>
    obtain rfl : reason = stop := by simpa using hstop
    exact hacquire
  | (.ok _, v), hacquire, hstop =>
    dsimp only at hstop
    rw [perform_measureRegion, h.units v hacquire] at hstop
    simp only [hfits.check] at hstop
    have hended := hsession v hacquire
    match (rig.session s pattern (unitsToCover s.size.toNat s.unit.toNat)).perform v,
      hended, hstop with
    | (.error reason, u), hended, hstop =>
      obtain rfl : reason = stop := by simpa using hstop
      exact hended

theorem not_misfit_of_outcome (hunit : 0 < s.unit.toNat) {pattern : AccessPattern}
    (hfits : pattern.Fits (unitsToCover s.size.toNat s.unit.toNat)) {w : σ} {n : Nat}
    {e : BenchError} (hfail : rig.outcome s pattern w n = .error (.failed e)) : ¬ e.Misfit :=
  h.isFit_of_trial hunit hfits hfail e rfl

end Confines

end Rig

end AccessBench
