import AccessBench.Proofs.Action
import AccessBench.Trial

/-!
The exchanges between a trial and its rig. A traced rig does what the rig does and keeps a log of
every call with its answer, so that what a trial asks of its surroundings can be told from outside.
-/

namespace AccessBench

/-- One call on a rig, with the answer of the rig. -/
inductive Exchange
  | prepare (s : Scenario)
  | acquire (s : Scenario) (answer : Except Stop Unit)
  | touch (index : Nat) (access : Access) (answer : Except Stop UInt64)
  | record (bytes : UInt64)
  | rewind (answer : Except Stop Unit)
  | startCounter
  | sample (answer : Except Stop UInt64)
  | clock (reading : Duration)
  | release

/-- Why an answer ends the action that asked for it, if it does. -/
def Stop.of? {α : Type} : Except Stop α → Option Stop
  | .ok _ => none
  | .error stop => some stop

namespace Exchange

/-- The stop that the rig answered with. -/
def stop? : Exchange → Option Stop
  | acquire _ answer | rewind answer => Stop.of? answer
  | touch _ _ answer | sample answer => Stop.of? answer
  | prepare _ | record _ | startCounter | clock _ | release => none

def stopping (stop : Stop) : Exchange → Exchange
  | acquire s _ => acquire s (.error stop)
  | touch index access _ => touch index access (.error stop)
  | rewind _ => rewind (.error stop)
  | sample _ => sample (.error stop)
  | e => e

def prepared? : Exchange → Option Scenario
  | prepare s => some s
  | _ => none

/-- A log that carries out the exchanges of a plan in turn, up to the first call that the rig
answers with a stop. -/
inductive Cut : List Exchange → List Exchange → Option Stop → Prop
  | done : Cut [] [] none
  | next {e : Exchange} {plan log : List Exchange} {stop : Option Stop} :
      e.stop? = none → Cut plan log stop → Cut (e :: plan) (e :: log) stop
  | stopped {e : Exchange} {plan : List Exchange} {stop : Stop} :
      (e.stopping stop).stop? = some stop → Cut (e :: plan) [e.stopping stop] (some stop)

namespace Cut

variable {plan rest log more : List Exchange} {stop : Option Stop} {reason : Stop}

theorem append (h : Cut plan log none) (hr : Cut rest more stop) :
    Cut (plan ++ rest) (log ++ more) stop := by
  generalize hn : none = ending at h
  induction h with
  | done => exact hr
  | next he _ ih => exact .next he (ih hn)
  | stopped => cases hn

theorem append_plan (h : Cut plan log (some reason)) (rest : List Exchange) :
    Cut (plan ++ rest) log (some reason) := by
  generalize hn : some reason = ending at h
  induction h with
  | done => cases hn
  | next he _ ih => exact .next he (ih hn)
  | stopped he => exact .stopped he

theorem eq_plan (h : Cut plan log none) : log = plan := by
  generalize hn : none = ending at h
  induction h with
  | done => rfl
  | next _ _ ih => rw [ih hn]
  | stopped => cases hn

/-- The stop is the answer of the last call, and of no call before. -/
theorem stop_last (h : Cut plan log (some reason)) :
    ∃ before e, log = before ++ [e] ∧ e.stop? = some reason ∧ ∀ e' ∈ before, e'.stop? = none := by
  generalize hn : some reason = ending at h
  induction h with
  | done => cases hn
  | @next e _ _ _ he _ ih =>
    obtain ⟨before, last, rfl, hlast, hbefore⟩ := ih hn
    exact ⟨e :: before, last, rfl, hlast, by simpa [he] using hbefore⟩
  | stopped he => exact ⟨[], _, rfl, he, by simp⟩

theorem stop?_eq_none (h : Cut plan log none) : ∀ e ∈ plan, e.stop? = none := by
  generalize hn : none = ending at h
  induction h with
  | done => simp
  | next he _ ih =>
    subst hn
    exact List.forall_mem_cons.mpr ⟨he, ih rfl⟩
  | stopped => cases hn

end Cut

end Exchange

namespace Rig

variable {σ : Type}

/-- The rig with a log of its exchanges, the latest of which stands last. -/
def traced (rig : Rig σ) : Rig (σ × List Exchange) where
  metric := rig.metric
  prepare := fun s w => (rig.prepare s w.1, w.2 ++ [.prepare s])
  acquire := fun s w =>
    let (answer, v) := (rig.acquire s).perform w.1
    (answer, v, w.2 ++ [.acquire s answer])
  units := fun w => rig.units w.1
  touch := fun index access w =>
    let (answer, v) := (rig.touch index access).perform w.1
    (answer, v, w.2 ++ [.touch index access answer])
  rewind := fun w =>
    let (answer, v) := rig.rewind.perform w.1
    (answer, v, w.2 ++ [.rewind answer])
  release := fun w => (rig.release w.1, w.2 ++ [.release])
  startCounter := fun w => (rig.startCounter w.1, w.2 ++ [.startCounter])
  sample := fun w =>
    let (answer, v) := rig.sample.perform w.1
    (answer, v, w.2 ++ [.sample answer])
  record := fun bytes w => (rig.record bytes w.1, w.2 ++ [.record bytes])
  clock := fun w =>
    let (reading, v) := rig.clock w.1
    (reading, v, w.2 ++ [.clock reading])

end Rig

/-- From a state, an action over a traced rig ends as the action over the rig itself, and the
exchanges that it adds to any log are as told. -/
def Traced {σ α : Type} (action : Action σ α) (tracing : Action (σ × List Exchange) α) (w : σ)
    (told : Except Stop α → List Exchange → Prop) : Prop :=
  ∀ log, ∃ added, tracing.perform (w, log) =
      ((action.perform w).1, (action.perform w).2, log ++ added) ∧ told (action.perform w).1 added

/-- The log carries out, as far as the result goes, a plan that some readings determine, and a value
is the one that belongs to these readings. -/
def Carries {ρ α : Type} (plan : ρ → List Exchange) (value : ρ → α) (result : Except Stop α)
    (log : List Exchange) : Prop :=
  ∃ r, Exchange.Cut (plan r) log (Stop.of? result) ∧ ∀ a, result = .ok a → a = value r

theorem Carries.map {ρ ρ' α : Type} {plan : ρ → List Exchange} {plan' : ρ' → List Exchange}
    {value : ρ → α} {value' : ρ' → α} {result : Except Stop α} {log : List Exchange}
    (h : Carries plan value result log) (form : ρ → ρ') (hplan : ∀ r, plan' (form r) = plan r)
    (hvalue : ∀ r, value' (form r) = value r) : Carries plan' value' result log := by
  obtain ⟨r, hcut, hv⟩ := h
  refine ⟨form r, ?_, ?_⟩
  · rw [hplan]
    exact hcut
  · intro a ha
    rw [hvalue]
    exact hv a ha

namespace Traced

section

variable {σ α β ρ : Type} {w : σ} {action : Action σ α}
  {tracing : Action (σ × List Exchange) α} {told told' : Except Stop α → List Exchange → Prop}

theorem mono (h : Traced action tracing w told)
    (hm : ∀ result added, told result added → told' result added) :
    Traced action tracing w told' := by
  intro log
  obtain ⟨added, hp, ht⟩ := h log
  exact ⟨added, hp, hm _ _ ht⟩

theorem bind {next : α → Action σ β} {tracingNext : α → Action (σ × List Exchange) β}
    {after : Except Stop β → List Exchange → Prop} (h : Traced action tracing w told)
    (hstop : ∀ stop added, told (.error stop) added → after (.error stop) added)
    (hnext : ∀ a v added, action.perform w = (.ok a, v) → told (.ok a) added →
      Traced (next a) (tracingNext a) v fun result more => after result (added ++ more)) :
    Traced (action >>= next) (tracing >>= tracingNext) w after := by
  intro log
  obtain ⟨added, hp, ht⟩ := h log
  rw [Action.perform_bind, Action.perform_bind, hp]
  match ha : action.perform w, ht with
  -- after a stop nothing more is asked for
  | (.error stop, v), ht => exact ⟨added, rfl, hstop stop added ht⟩
  | (.ok a, v), ht =>
    obtain ⟨more, hq, hm⟩ := hnext a v added ha ht (log ++ added)
    exact ⟨added ++ more, by rw [← List.append_assoc]; exact hq, hm⟩

theorem pure (a : α) : Traced (Pure.pure a) (Pure.pure a) w
    (Carries (fun _ : Unit => []) fun _ => a) := by
  intro log
  refine ⟨[], by simp, (), .done, ?_⟩
  intro b hb
  cases hb
  rfl

/-- Two actions in turn carry out their plans one after the other. -/
theorem bind_carries {ρ' : Type} [Nonempty ρ'] {next : α → Action σ β}
    {tracingNext : α → Action (σ × List Exchange) β} {plan : ρ → List Exchange} {value : ρ → α}
    {plan' : ρ → ρ' → List Exchange} {value' : ρ → ρ' → β}
    (h : Traced action tracing w (Carries plan value))
    (hnext : ∀ r v, Traced (next (value r)) (tracingNext (value r)) v
      (Carries (plan' r) (value' r))) :
    Traced (action >>= next) (tracing >>= tracingNext) w
      (Carries (fun q : ρ × ρ' => plan q.1 ++ plan' q.1 q.2) fun q => value' q.1 q.2) := by
  obtain ⟨unread⟩ := ‹Nonempty ρ'›
  apply h.bind
  · intro stop added h
    obtain ⟨r, hcut, -⟩ := h
    exact ⟨(r, unread), hcut.append_plan _, by simp⟩
  · intro a v added _ h
    obtain ⟨r, hcut, hv⟩ := h
    obtain rfl := hv a rfl
    apply (hnext r v).mono
    intro result more h
    obtain ⟨r', hcut', hv'⟩ := h
    exact ⟨(r, r'), hcut.append hcut', hv'⟩

/-- A single call carries out a plan of one exchange. -/
theorem call [Nonempty α] {exchange : Except Stop α → Exchange}
    (hp : ∀ log, tracing.perform (w, log) =
      ((action.perform w).1, (action.perform w).2, log ++ [exchange (action.perform w).1]))
    (hok : ∀ a, (exchange (.ok a)).stop? = none)
    (hstop : ∀ stop, (exchange (.error stop)).stop? = some stop)
    (hstopping : ∀ a stop, (exchange (.ok a)).stopping stop = exchange (.error stop)) :
    Traced action tracing w (Carries (fun a => [exchange (.ok a)]) id) := by
  intro log
  refine ⟨_, hp log, ?_⟩
  match (action.perform w).1 with
  | .ok a => exact ⟨a, .next (hok a) .done, by simp⟩
  | .error stop =>
    obtain ⟨a⟩ := ‹Nonempty α›
    have hcut : Exchange.Cut [exchange (.ok a)] [(exchange (.ok a)).stopping stop] (some stop) :=
      .stopped (by rw [hstopping]; exact hstop stop)
    rw [hstopping] at hcut
    exact ⟨a, hcut, by simp⟩

theorem step {f : σ → α × σ} {tracingF : σ × List Exchange → α × σ × List Exchange}
    {exchange : α → Exchange}
    (hf : ∀ log, tracingF (w, log) = ((f w).1, (f w).2, log ++ [exchange (f w).1]))
    (hstop : ∀ a, (exchange a).stop? = none) :
    Traced (.update f) (.update tracingF) w (Carries (fun a => [exchange a]) id) := by
  intro log
  refine ⟨[exchange (f w).1], ?_, (f w).1, .next (hstop _) .done, ?_⟩
  · rw [Action.perform_update, Action.perform_update, hf]
  · intro a ha
    cases ha
    rfl

end

section

variable {σ : Type} (rig : Rig σ) (w : σ)

theorem touch (index : Nat) (access : Access) :
    Traced (rig.touch index access) (rig.traced.touch index access) w
      (Carries (fun moved => [.touch index access (.ok moved)]) id) :=
  call (fun _ => rfl) (fun _ => rfl) (fun _ => rfl) fun _ _ => rfl

theorem rewind : Traced rig.rewind rig.traced.rewind w
    (Carries (fun done => [.rewind (.ok done)]) id) :=
  call (fun _ => rfl) (fun _ => rfl) (fun _ => rfl) fun _ _ => rfl

theorem sample : Traced rig.sample rig.traced.sample w
    (Carries (fun reading => [.sample (.ok reading)]) id) :=
  call (fun _ => rfl) (fun _ => rfl) (fun _ => rfl) fun _ _ => rfl

theorem clock : Traced (.update rig.clock) (.update rig.traced.clock) w
    (Carries (fun reading => [.clock reading]) id) :=
  step (fun _ => rfl) fun _ => rfl

theorem record (bytes : UInt64) :
    Traced (.update fun v => ((), rig.record bytes v))
      (.update fun v => ((), rig.traced.record bytes v)) w
      (Carries (fun _ => [.record bytes]) id) :=
  step (fun _ => rfl) fun _ => rfl

theorem startCounter :
    Traced (.update fun v => ((), rig.startCounter v))
      (.update fun v => ((), rig.traced.startCounter v)) w
      (Carries (fun _ => [.startCounter]) id) :=
  step (fun _ => rfl) fun _ => rfl

end

end Traced

end AccessBench
