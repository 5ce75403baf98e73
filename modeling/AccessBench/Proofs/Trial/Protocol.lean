import AccessBench.Proofs.Duration
import AccessBench.Proofs.Pattern.Order
import AccessBench.Proofs.Trial.Exchange

/-!
The protocol of a trial: which calls it makes on its rig, in which order, and with what result,
over every rig. The plan of a trial that nothing stops is written down from the readings that it
takes; the log of any trial is that plan, cut at the first call that stops.
-/

namespace AccessBench

/-- Visits the units of a list, and counts them on from `visited`. -/
def visitEach {σ : Type} (visit : Nat → Action σ Unit) : List Nat → UInt64 → Action σ UInt64
  | [], visited => return visited
  | index :: rest, visited => do
    visit index
    visitEach visit rest (visited + 1)

section

variable {σ : Type} (visit : Nat → Action σ Unit)

theorem perform_visitFrom (order : VisitOrder) (visited : UInt64) (w : σ) :
    visitFrom visit order.remaining order visited w =
      (visitEach visit order.toList visited).perform w := by
  generalize hn : order.remaining = n
  induction n generalizing order visited w with
  | zero =>
    have hlist : order.toList = [] := by
      apply List.eq_nil_of_length_eq_zero
      rw [VisitOrder.length_toList, hn]
    rw [hlist]
    rfl
  | succ n ih =>
    cases hnext : order.next? with
    | none => simp [VisitOrder.remaining_of_next?_eq_none hnext] at hn
    | some next =>
      obtain ⟨index, rest⟩ := next
      have hrest := VisitOrder.remaining_of_next? hnext
      rw [VisitOrder.toList_of_next? hnext, visitEach, Action.perform_bind]
      simp only [visitFrom, hnext]
      match (visit index).perform w with
      | (.error stop, v) => rfl
      | (.ok (), v) => exact ih rest (visited + 1) v (by omega)

theorem visitAll_eq_visitEach (order : VisitOrder) :
    visitAll visit order = visitEach visit order.toList 0 :=
  funext (perform_visitFrom visit order 0)

end

theorem toNat_delta (before after : UInt64) :
    (delta before after).value.toNat = after.toNat - before.toNat := by
  rw [delta]
  split
  · next hle => exact UInt64.toNat_sub_of_le _ _ hle
  · next hlt => exact (Nat.sub_eq_zero_of_le (Nat.le_of_not_le hlt)).symm

theorem clamped_delta (before after : UInt64) :
    (delta before after).clamped = true ↔ after.toNat < before.toNat := by
  rw [delta]
  split
  · next hle => exact iff_of_false Bool.false_ne_true (Nat.not_lt_of_le hle)
  · next hlt => exact iff_of_true rfl (Nat.lt_of_not_le hlt)

/-- What a trial is told by its rig: the units that it visits, each with the bytes moved, and the
readings of the counter and of the clock. -/
structure Readings where
  warm : List (Nat × UInt64)
  before : UInt64
  start : Duration
  timed : List (Nat × UInt64)
  stop : Duration
  after : UInt64

namespace Readings

def warming (access : Access) (visit : Nat × UInt64) : List Exchange :=
  [.touch visit.1 access (.ok visit.2)]

/-- A visit that is recorded at once, with the bytes that it moved. -/
def timing (access : Access) (visit : Nat × UInt64) : List Exchange :=
  [.touch visit.1 access (.ok visit.2), .record visit.2]

/-- The pass before the measurement. -/
def warmUp (access : Access) (r : Readings) : List Exchange :=
  r.warm.flatMap (warming access) ++ [.rewind (.ok ())]

/-- The timed pass between the readings. -/
def measurement (access : Access) (r : Readings) : List Exchange :=
  [.startCounter, .sample (.ok r.before), .clock r.start] ++ r.timed.flatMap (timing access) ++
    [.clock r.stop, .sample (.ok r.after)]

/-- The exchanges over a region that has been taken, when no call stops. -/
def plan (s : Scenario) (pattern : AccessPattern) (r : Readings) : List Exchange :=
  (if pattern = .hotCache then r.warmUp s.access else []) ++ r.measurement s.access

/-- The warm pass covers the units in increasing order, the timed one those of the pattern. -/
def Cover (pattern : AccessPattern) (units : Nat) (r : Readings) : Prop :=
  (pattern = .hotCache → r.warm.map (·.1) = List.range units) ∧
    r.timed.map (·.1) = (pattern.order units).toList

def trial (r : Readings) : Trial where
  duration := (elapsed r.start r.stop).duration
  auxCount := (delta r.before r.after).value
  visited := UInt64.ofNat r.timed.length
  clamped := (elapsed r.start r.stop).clamped || (delta r.before r.after).clamped

/-- A trial tells the time between the readings of the clock and the rise of the counter. Where one
of the two went backwards it tells none of it, and is flagged. -/
structure Measures (r : Readings) (t : Trial) : Prop where
  duration : t.duration.toNanos = r.stop.toNanos - r.start.toNanos
  auxCount : t.auxCount.toNat = r.after.toNat - r.before.toNat
  clamped : t.clamped = true ↔
    r.stop.toNanos < r.start.toNanos ∨ r.after.toNat < r.before.toNat

theorem measures_trial (r : Readings) : r.Measures r.trial where
  duration := toNanos_elapsed r.start r.stop
  auxCount := toNat_delta r.before r.after
  clamped := by
    rw [trial, Bool.or_eq_true, clamped_elapsed, clamped_delta]

end Readings

/-- The log and the result of a trial over a region with the given count of units. -/
inductive TrialLog (s : Scenario) (pattern : AccessPattern) (units : Except Halt Nat) :
    List Exchange → Except Stop Trial → Prop
  /-- No region is given. -/
  | refused (stop : Stop) :
    TrialLog s pattern units [.prepare s, .acquire s (.error stop)] (.error stop)
  /-- The region has no count of units. -/
  | uncounted (reason : Halt) :
    units = .error reason →
    TrialLog s pattern units [.prepare s, .acquire s (.ok ()), .release] (.error (.halted reason))
  /-- The pattern does not fit the region: no unit is visited and no counter is taken. -/
  | unfit (n size : Nat) :
    units = .ok n → pattern.check n = .error (.patternMismatch n size) →
    TrialLog s pattern units [.prepare s, .acquire s (.ok ()), .release]
      (.error (.failed (.patternMismatch n size)))
  | stopped (n : Nat) (r : Readings) (log : List Exchange) (stop : Stop) :
    units = .ok n → pattern.check n = .ok () → r.Cover pattern n →
    Exchange.Cut (r.plan s pattern) log (some stop) →
    TrialLog s pattern units ([.prepare s, .acquire s (.ok ())] ++ log ++ [.release]) (.error stop)
  | completed (n : Nat) (r : Readings) :
    units = .ok n → pattern.check n = .ok () → r.Cover pattern n →
    (∀ e ∈ r.plan s pattern, e.stop? = none) →
    TrialLog s pattern units
      ([.prepare s, .acquire s (.ok ())] ++ r.plan s pattern ++ [.release]) (.ok r.trial)

theorem AccessPattern.needsWarmup_eq_false {pattern : AccessPattern} (h : pattern ≠ .hotCache) :
    pattern.needsWarmup = false := by
  cases pattern with
  | hotCache => exact absurd rfl h
  | sequential | stride | reverse | random => rfl

namespace Rig

variable {σ : Type} (rig : Rig σ)

/-- What is done with a region of so many units, once the pattern is known to fit them. -/
def session (s : Scenario) (pattern : AccessPattern) (units : Nat) : Action σ Trial := do
  if pattern.needsWarmup then rig.warmUp units s.access
  rig.measure units pattern s.access

theorem perform_measureRegion (s : Scenario) (pattern : AccessPattern) (w : σ) :
    (rig.measureRegion s pattern).perform w =
      match rig.units w with
      | .error reason => (.error (.halted reason), w)
      | .ok n =>
        match pattern.check n with
        | .error e => (.error (.failed e), w)
        | .ok () => (rig.session s pattern n).perform w := by
  have hunits : rig.regionUnits.perform w = ((rig.units w).mapError .halted, w) := rfl
  rw [measureRegion, Action.perform_bind, hunits]
  cases rig.units w with
  | error reason => rfl
  | ok n =>
    simp only [Action.mapError_ok, Action.perform_bind, Action.perform_ofResult]
    cases pattern.check n <;> rfl

theorem perform_trial (s : Scenario) (pattern : AccessPattern) (w : σ) :
    (rig.trial s pattern).perform w =
      match (rig.acquire s).perform (rig.prepare s w) with
      | (.ok (), v) => (((rig.measureRegion s pattern).perform v).1,
          rig.release ((rig.measureRegion s pattern).perform v).2)
      | (.error stop, v) => (.error stop, v) := by
  rw [trial, Action.perform_bind, Action.perform_update]
  dsimp only
  rw [Action.perform_bind]
  match (rig.acquire s).perform (rig.prepare s w) with
  | (.ok (), v) => rfl
  | (.error stop, v) => rfl

variable {rig} {s : Scenario} {pattern : AccessPattern} {w v : σ}

theorem perform_trial_of_refused {stop : Stop}
    (h : (rig.acquire s).perform (rig.prepare s w) = (.error stop, v)) :
    (rig.trial s pattern).perform w = (.error stop, v) := by
  rw [perform_trial, h]

theorem perform_trial_of_measured {t : Trial} {u : σ}
    (hacquire : (rig.acquire s).perform (rig.prepare s w) = (.ok (), v))
    (hmeasure : (rig.measureRegion s pattern).perform v = (.ok t, u)) :
    (rig.trial s pattern).perform w = (.ok t, rig.release u) := by
  rw [perform_trial, hacquire]
  dsimp only
  rw [hmeasure]

end Rig

namespace Traced

variable {σ : Type} (rig : Rig σ) (access : Access) (w : σ)

theorem warmVisit (index : Nat) :
    Traced (rig.warmVisit access index) (rig.traced.warmVisit access index) w
      (Carries (fun moved => Readings.warming access (index, moved)) fun _ => ()) := by
  apply ((touch rig w index access).bind_carries fun _ v => pure ()).mono
  intro result added h
  exact h.map Prod.fst (fun _ => rfl) fun _ => rfl

theorem timedVisit (index : Nat) :
    Traced (rig.timedVisit access index) (rig.traced.timedVisit access index) w
      (Carries (fun moved => Readings.timing access (index, moved)) fun _ => ()) := by
  apply ((touch rig w index access).bind_carries fun moved v => record rig v moved).mono
  intro result added h
  exact h.map Prod.fst (fun _ => rfl) fun _ => rfl

/-- The visits of a list of units, each with the bytes moved. -/
abbrev Visits (units : List Nat) : Type :=
  { visits : List (Nat × UInt64) // visits.map (·.1) = units }

instance (units : List Nat) : Nonempty (Visits units) :=
  ⟨units.map fun index => (index, 0), by simp [Function.comp_def]⟩

theorem visitEach {visit : Nat → Action σ Unit}
    {tracingVisit : Nat → Action (σ × List Exchange) Unit} {plan : Nat × UInt64 → List Exchange}
    (hvisit : ∀ index v, Traced (visit index) (tracingVisit index) v
      (Carries (fun moved => plan (index, moved)) fun _ => ()))
    (units : List Nat) (visited : UInt64) :
    Traced (AccessBench.visitEach visit units visited)
      (AccessBench.visitEach tracingVisit units visited) w
      (Carries (fun visits : Visits units => visits.1.flatMap plan)
        fun visits => visited + UInt64.ofNat visits.1.length) := by
  induction units generalizing visited w with
  | nil =>
    apply (pure visited).mono
    intro result added h
    exact h.map (fun _ => ⟨[], rfl⟩) (fun _ => rfl) fun _ => by simp
  | cons index rest ih =>
    apply ((hvisit index w).bind_carries fun _ v => ih v (visited + 1)).mono
    intro result added h
    refine h.map (fun q => ⟨(index, q.1) :: q.2.1, by simp [q.2.2]⟩) (fun q => by simp) fun q => ?_
    simp [UInt64.ofNat_add, UInt64.add_assoc, UInt64.add_comm 1]

theorem warmUp (units : Nat) :
    Traced (rig.warmUp units access) (rig.traced.warmUp units access) w
      (Carries (fun visits : Visits (List.range units) =>
        visits.1.flatMap (Readings.warming access) ++ [.rewind (.ok ())]) fun _ => ()) := by
  unfold Rig.warmUp
  rw [visitAll_eq_visitEach, visitAll_eq_visitEach, AccessPattern.toList_order_sequential]
  apply ((visitEach w (fun index v => warmVisit rig access v index) _ 0).bind_carries
    fun _ v => rewind rig v).mono
  intro result added h
  exact h.map Prod.fst (fun _ => rfl) fun _ => rfl

abbrev Timed (units : List Nat) : Type := { r : Readings // r.timed.map (·.1) = units }

instance (units : List Nat) : Nonempty (Timed units) :=
  ⟨⟨[], 0, .zero, units.map fun index => (index, 0), .zero, 0⟩, by simp [Function.comp_def]⟩

theorem measure (units : Nat) (pattern : AccessPattern) :
    Traced (rig.measure units pattern access) (rig.traced.measure units pattern access) w
      (Carries (fun r : Timed (pattern.order units).toList => r.1.measurement access)
        fun r => r.1.trial) := by
  unfold Rig.measure
  rw [visitAll_eq_visitEach, visitAll_eq_visitEach]
  have hvisits (v : σ) := visitEach v (fun index v => timedVisit rig access v index)
    (pattern.order units).toList 0
  apply ((startCounter rig w).bind_carries fun _ v => (sample rig v).bind_carries fun before v =>
    (clock rig v).bind_carries fun start v => (hvisits v).bind_carries fun visits v =>
      (clock rig v).bind_carries fun stop v => (sample rig v).bind_carries fun after v =>
        pure (Trial.mk (elapsed start stop).duration (delta before after).value
          (0 + UInt64.ofNat visits.1.length)
          ((elapsed start stop).clamped || (delta before after).clamped))).mono
  intro result added h
  refine h.map (fun q => ⟨⟨[], q.2.1, q.2.2.1, q.2.2.2.1.1, q.2.2.2.2.1, q.2.2.2.2.2.1⟩,
    q.2.2.2.1.2⟩) (fun q => ?_) fun q => ?_
  · simp [Readings.measurement]
  · simp [Readings.trial]

theorem session (s : Scenario) (pattern : AccessPattern) (units : Nat) :
    Traced (rig.session s pattern units) (rig.traced.session s pattern units) w
      (Carries (fun r : { r : Readings // r.Cover pattern units } => r.1.plan s pattern)
        fun r => r.1.trial) := by
  unfold Rig.session
  by_cases hhot : pattern = .hotCache
  · subst hhot
    simp only [AccessPattern.needsWarmup, if_true]
    apply ((warmUp rig s.access w units).bind_carries
      fun _ v => measure rig s.access v units .hotCache).mono
    intro result added h
    refine h.map (fun q => ⟨{ q.2.1 with warm := q.1.1 }, fun _ => q.1.2, q.2.2⟩) (fun q => ?_)
      fun q => rfl
    simp [Readings.plan, Readings.warmUp, Readings.measurement]
  · rw [AccessPattern.needsWarmup_eq_false hhot]
    apply (measure rig s.access w units pattern).mono
    intro result added h
    exact h.map (fun r => ⟨r.1, fun hp => absurd hp hhot, r.2⟩)
      (fun r => by simp [Readings.plan, hhot]) fun r => rfl

theorem finally_release {α : Type} {action : Action σ α} {tracing : Action (σ × List Exchange) α}
    {told : Except Stop α → List Exchange → Prop} (h : Traced action tracing w told) :
    Traced (action.finally rig.release) (tracing.finally rig.traced.release) w
      fun result added => ∃ log, added = log ++ [.release] ∧ told result log := by
  intro log
  obtain ⟨added, hp, ht⟩ := h log
  refine ⟨added ++ [.release], ?_, added, rfl, ht⟩
  rw [Action.perform_finally, Action.perform_finally, hp, ← List.append_assoc]
  rfl

theorem measureRegion (s : Scenario) (pattern : AccessPattern) :
    Traced (rig.measureRegion s pattern) (rig.traced.measureRegion s pattern) w
      fun result added =>
        (∃ reason, rig.units w = .error reason ∧ added = [] ∧ result = .error (.halted reason)) ∨
        (∃ n e, rig.units w = .ok n ∧ pattern.check n = .error e ∧ added = [] ∧
          result = .error (.failed e)) ∨
        ∃ n, rig.units w = .ok n ∧ pattern.check n = .ok () ∧
          Carries (fun r : { r : Readings // r.Cover pattern n } => r.1.plan s pattern)
            (fun r => r.1.trial) result added := by
  intro log
  have hunits : rig.traced.units (w, log) = rig.units w := rfl
  rw [Rig.perform_measureRegion, Rig.perform_measureRegion, hunits]
  cases hn : rig.units w with
  | error reason => exact ⟨[], by simp, .inl ⟨reason, rfl, rfl, rfl⟩⟩
  | ok n =>
    cases hc : pattern.check n with
    | error e => exact ⟨[], by simp [hc], .inr (.inl ⟨n, e, rfl, hc, rfl, by simp [hc]⟩)⟩
    | ok _ =>
      obtain ⟨added, hp, ht⟩ := session rig w s pattern n log
      exact ⟨added, by simpa [hc] using hp, .inr (.inr ⟨n, rfl, hc, by simpa [hc] using ht⟩)⟩

theorem trial (s : Scenario) (pattern : AccessPattern) :
    Traced (rig.trial s pattern) (rig.traced.trial s pattern) w fun result added =>
      TrialLog s pattern (rig.units ((rig.acquire s).perform (rig.prepare s w)).2) added result := by
  have hprepare : Traced (.update fun v => ((), rig.prepare s v))
      (.update fun v => ((), rig.traced.prepare s v)) w
      fun result added => result = .ok () ∧ added = [.prepare s] :=
    fun _ => ⟨[_], rfl, rfl, rfl⟩
  have hacquire (v : σ) : Traced (rig.acquire s) (rig.traced.acquire s) v
      fun result added => added = [.acquire s result] := fun _ => ⟨[_], rfl, rfl⟩
  unfold Rig.trial
  apply hprepare.bind
  · intro stop added h
    obtain ⟨hstop, -⟩ := h
    cases hstop
  intro _ v added hv h
  obtain ⟨-, rfl⟩ := h
  obtain rfl : rig.prepare s w = v := congrArg Prod.snd hv
  apply (hacquire _).bind
  · intro stop added heq
    subst heq
    exact .refused stop
  intro _ u added hu heq
  subst heq
  rw [hu]
  apply (finally_release rig u (measureRegion rig u s pattern)).mono
  intro result added h
  obtain ⟨log, rfl, h⟩ := h
  rcases h with ⟨reason, hn, rfl, rfl⟩ | ⟨n, e, hn, hc, rfl, rfl⟩ | ⟨n, hn, hc, r, hcut, hr⟩
  · exact .uncounted reason hn
  · obtain ⟨size, rfl⟩ := AccessPattern.check_error hc
    exact .unfit n size hn hc
  · cases result with
    | error stop => exact .stopped n r.1 log stop hn hc r.2 hcut
    | ok t =>
      obtain rfl := hr t rfl
      obtain rfl := hcut.eq_plan
      exact .completed n r.1 hn hc r.2 hcut.stop?_eq_none

end Traced

namespace TrialLog

variable {s : Scenario} {pattern : AccessPattern} {units : Except Halt Nat} {log : List Exchange}

/-- A trial has a result if and only if no call stopped it and the pattern fits the region. -/
theorem ok_iff {result : Except Stop Trial} (h : TrialLog s pattern units log result) :
    (∃ t, result = .ok t) ↔
      (∀ e ∈ log, e.stop? = none) ∧ ∃ n, units = .ok n ∧ pattern.check n = .ok () := by
  cases h with
  | refused stop => simp [Exchange.stop?, Stop.of?]
  | uncounted reason hn => simp [hn]
  | unfit n size hn hc => simp [hn, hc]
  | stopped n r log stop hn hc hcover hcut =>
    obtain ⟨before, e, rfl, he, -⟩ := hcut.stop_last
    constructor
    · intro h
      obtain ⟨t, ht⟩ := h
      cases ht
    · intro h
      obtain ⟨hnone, -⟩ := h
      rw [hnone e (by simp)] at he
      cases he
  | completed n r hn hc hcover hnone =>
    refine iff_of_true ⟨_, rfl⟩ ⟨?_, n, hn, hc⟩
    intro e he
    simp only [List.mem_append, List.mem_cons, List.not_mem_nil, or_false] at he
    rcases he with ((rfl | rfl) | he) | rfl
    · rfl
    · rfl
    · exact hnone e he
    · rfl

/-- The log of a trial with a result is the whole plan, over the readings that the result tells. -/
theorem measures {t : Trial} (h : TrialLog s pattern units log (.ok t)) :
    ∃ (n : Nat) (r : Readings), units = .ok n ∧ r.Cover pattern n ∧
      log = [.prepare s, .acquire s (.ok ())] ++ r.plan s pattern ++ [.release] ∧
      r.Measures t := by
  cases h with
  | completed n r hn hc hcover hnone => exact ⟨n, r, hn, hcover, rfl, r.measures_trial⟩

theorem toNat_visited {t : Trial} {n : Nat} (h : TrialLog s pattern units log (.ok t))
    (hn : units = .ok n) (hfit : n < UInt64.size) :
    t.visited.toNat = (pattern.order n).toList.length := by
  cases h with
  | completed m r hm hc hcover hnone =>
    obtain rfl : m = n := by
      rw [hm] at hn
      exact Except.ok.inj hn
    have hlength : r.timed.length = (pattern.order m).toList.length := by
      rw [← hcover.2, List.length_map]
    have hle := AccessPattern.length_order_le hc
    rw [← hlength] at hle ⊢
    exact UInt64.toNat_ofNat_of_lt' (Nat.lt_of_le_of_lt hle hfit)

end TrialLog

/-- Over every rig, a trial makes the calls of its plan in order, up to the first that stops, and
gives its region back. It has a result if and only if no call stopped and the pattern fitted. Then
it tells its readings, and its visits are as many as the pattern orders. -/
theorem trial_protocol {σ : Type} (rig : Rig σ) (s : Scenario) (pattern : AccessPattern) (w : σ) :
    let units := rig.units ((rig.acquire s).perform (rig.prepare s w)).2
    let ended := (rig.trial s pattern).perform w
    ∃ log, (rig.traced.trial s pattern).perform (w, []) = (ended.1, ended.2, log) ∧
      TrialLog s pattern units log ended.1 ∧
      ((∃ t, ended.1 = .ok t) ↔
        (∀ e ∈ log, e.stop? = none) ∧ ∃ n, units = .ok n ∧ pattern.check n = .ok ()) ∧
      (∀ t, ended.1 = .ok t → ∃ (n : Nat) (r : Readings), units = .ok n ∧ r.Cover pattern n ∧
        log = [.prepare s, .acquire s (.ok ())] ++ r.plan s pattern ++ [.release] ∧
        r.Measures t) ∧
      ∀ t n, ended.1 = .ok t → units = .ok n → n < UInt64.size →
        t.visited.toNat = (pattern.order n).toList.length := by
  intro units ended
  obtain ⟨log, hp, hlog⟩ := Traced.trial rig w s pattern []
  change TrialLog s pattern units log ended.1 at hlog
  refine ⟨log, hp, hlog, hlog.ok_iff, ?_, ?_⟩
  · intro t ht
    rw [ht] at hlog
    exact hlog.measures
  · intro t n ht hn hfit
    rw [ht] at hlog
    exact hlog.toNat_visited hn hfit

end AccessBench
