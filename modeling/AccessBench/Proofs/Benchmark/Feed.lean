import AccessBench.Benchmark
import AccessBench.Proofs.Trial.Repetition

/-!
Runs and their sinks. What a run reports does not depend on the sink that it reports to: a run over
any sink is the run over a recorder, fed to the sink up to the first event that the sink fails on.
-/

namespace AccessBench

namespace Sink

variable {τ : Type} (sink : Sink τ)

def recorder : Sink (List Event) := ⟨fun event events => { state := events ++ [event] }⟩

/-- Hands events over one by one, up to the first that the sink fails on. -/
def feed : List Event → τ → Except Failure Unit × τ
  | [], t => (.ok (), t)
  | event :: rest, t =>
    match (sink.receive event t).result with
    | .ok () => feed rest (sink.receive event t).state
    | .error failure => (.error failure, (sink.receive event t).state)

theorem feed_recorder (events before : List Event) :
    recorder.feed events before = (.ok (), before ++ events) := by
  induction events generalizing before with
  | nil => simp [feed]
  | cons event rest ih =>
    rw [feed]
    change recorder.feed rest (before ++ [event]) = _
    rw [ih, List.append_assoc, List.singleton_append]

theorem feed_append (before after : List Event) (t : τ) :
    sink.feed (before ++ after) t =
      match sink.feed before t with
      | (.ok (), u) => sink.feed after u
      | (.error failure, u) => (.error failure, u) := by
  induction before generalizing t with
  | nil => rfl
  | cons event rest ih =>
    rw [List.cons_append, feed, feed]
    cases (sink.receive event t).result with
    | ok _ => exact ih _
    | error failure => rfl

structure Call where
  event : Event
  answer : Except Failure Unit

/-- The sink, with all calls on it kept beside its state. -/
def traced : Sink (τ × List Call) :=
  ⟨fun event (t, calls) =>
    let reply := sink.receive event t
    { state := (reply.state, calls ++ [⟨event, reply.result⟩])
      notices := reply.notices
      result := reply.result }⟩

/-- The calls that events make, the last of which is the first that fails. -/
def calls : List Event → τ → List Call
  | [], _ => []
  | event :: rest, t =>
    match (sink.receive event t).result with
    | .ok () => ⟨event, .ok ()⟩ :: calls rest (sink.receive event t).state
    | .error failure => [⟨event, .error failure⟩]

theorem calls_singleton (event : Event) (t : τ) :
    sink.calls [event] t = [⟨event, (sink.receive event t).result⟩] := by
  rw [calls]
  cases hreply : (sink.receive event t).result with
  | ok _ => rfl
  | error failure => rfl

theorem feed_traced (events : List Event) (t : τ) (before : List Call) :
    sink.traced.feed events (t, before) =
      ((sink.feed events t).1, (sink.feed events t).2, before ++ sink.calls events t) := by
  induction events generalizing t before with
  | nil => simp [feed, calls]
  | cons event rest ih =>
    rw [feed, feed, calls]
    have hresult : (sink.traced.receive event (t, before)).result =
        (sink.receive event t).result := rfl
    have hstate : (sink.traced.receive event (t, before)).state =
        ((sink.receive event t).state, before ++ [⟨event, (sink.receive event t).result⟩]) := rfl
    rw [hresult, hstate]
    cases hreply : (sink.receive event t).result with
    | ok _ => simp only [ih, List.append_assoc, List.singleton_append]
    | error failure => rfl

variable {sink}

theorem calls_of_ok {events : List Event} {t : τ} (h : (sink.feed events t).1 = .ok ()) :
    sink.calls events t = events.map fun event => ⟨event, .ok ()⟩ := by
  induction events generalizing t with
  | nil => rfl
  | cons event rest ih =>
    rw [feed] at h
    rw [calls, List.map_cons]
    cases hreply : (sink.receive event t).result with
    | ok _ =>
      rw [hreply] at h
      simp only [ih h]
    | error failure =>
      rw [hreply] at h
      cases h

theorem calls_append {before after : List Event} {t u : τ}
    (h : sink.feed before t = (.ok (), u)) :
    sink.calls (before ++ after) t =
      (before.map fun event => ⟨event, .ok ()⟩) ++ sink.calls after u := by
  induction before generalizing t with
  | nil =>
    obtain rfl : t = u := congrArg Prod.snd h
    rfl
  | cons event rest ih =>
    rw [feed] at h
    rw [List.cons_append, calls, List.map_cons]
    cases hreply : (sink.receive event t).result with
    | ok _ =>
      rw [hreply] at h
      simp only [ih h, List.cons_append]
    | error failure =>
      rw [hreply] at h
      cases h

/-- The call that fails is the last one, and those before it are on the events before. -/
theorem calls_of_error {events : List Event} {t : τ} {failure : Failure}
    (h : (sink.feed events t).1 = .error failure) :
    ∃ before event after, events = before ++ event :: after ∧
      sink.calls events t =
        (before.map fun event => ⟨event, .ok ()⟩) ++ [⟨event, .error failure⟩] := by
  induction events generalizing t with
  | nil => cases h
  | cons event rest ih =>
    rw [feed] at h
    rw [calls]
    cases hreply : (sink.receive event t).result with
    | ok _ =>
      rw [hreply] at h
      obtain ⟨before, failing, after, rfl, hcalls⟩ := ih h
      refine ⟨event :: before, failing, after, rfl, ?_⟩
      simp only [hcalls, List.map_cons, List.cons_append]
    | error failure' =>
      rw [hreply] at h
      obtain rfl : failure' = failure := by simpa using h
      exact ⟨[], event, rest, rfl, rfl⟩

theorem calls_ok_iff {events : List Event} {t : τ} :
    (∀ call ∈ sink.calls events t, call.answer = .ok ()) ↔ (sink.feed events t).1 = .ok () := by
  constructor
  · intro h
    cases hfeed : (sink.feed events t).1 with
    | ok _ => rfl
    | error failure =>
      obtain ⟨before, event, after, -, hcalls⟩ := calls_of_error hfeed
      have hlast := h ⟨event, .error failure⟩ (by simp [hcalls])
      cases hlast
  · intro h call hcall
    rw [calls_of_ok h, List.mem_map] at hcall
    obtain ⟨event, -, rfl⟩ := hcall
    rfl

/-- The calls go through the events in order and leave out none but at the end. -/
theorem map_event_calls (events : List Event) (t : τ) :
    (sink.calls events t).map Call.event = events.take (sink.calls events t).length := by
  cases hfeed : (sink.feed events t).1 with
  | ok _ => simp [calls_of_ok hfeed, Function.comp_def]
  | error failure =>
    obtain ⟨before, event, after, rfl, hcalls⟩ := calls_of_error hfeed
    have htake : (before ++ event :: after).take (before.length + 1) = before ++ [event] := by
      rw [List.append_cons, List.take_left' (by simp)]
    simp [hcalls, htake, Function.comp_def]

end Sink

variable {σ τ α β : Type}

/-- What goes wrong in a trial makes a row, and the only other end of a repetition is a halt. -/
theorem Rig.repeatTrials_ne_failed (rig : Rig σ) (space : AddressSpace) (iterations : UInt64)
    (s : Scenario) (pattern : AccessPattern) (w : σ) (e : BenchError) :
    ((rig.repeatTrials space iterations s pattern).perform w).1 ≠ .error (.failed e) := by
  rw [perform_repeatTrials]
  match (rig.trials space (repetitions iterations) s pattern).perform w with
  | (.error (.failed _), _) | (.error (.halted _), _) => simp
  | (.ok results, _) =>
    cases hrow : Row.ofTrials s rig.metric results <;> simp [hrow, Except.map]

theorem Benchmark.perform_measureScenario (host : Host σ) (b : Benchmark) (rig : Rig σ)
    (s : Scenario) (pattern : AccessPattern) (r : Run σ τ) :
    (b.measureScenario host rig s pattern).perform r =
      match (rig.repeatTrials host.space b.config.iterations s pattern).perform r.world with
      | (.ok (row, lines), world) => (.ok row, { r with world := world }.print lines)
      | (.error stop, world) => (.error stop, { r with world := world }) := rfl

/-- Where only the surroundings are cleaned up, the rest of the run stays as it was left. -/
theorem Action.perform_unwinding_world (action : Action (Run σ τ) α) (cleanup : σ → σ)
    (r : Run σ τ) :
    (action.unwinding fun r => { r with world := cleanup r.world }).perform r =
      ((action.perform r).1, { (action.perform r).2 with
        world := match (action.perform r).1 with
          | .ok _ => cleanup (action.perform r).2.world
          | .error stop => if stop.aborts then (action.perform r).2.world
            else cleanup (action.perform r).2.world }) := by
  rw [perform_unwinding]
  match action.perform r with
  | (.ok a, v) => rfl
  | (.error stop, v) =>
    dsimp only
    split
    · rfl
    · rfl

/-- From equal surroundings and counts, an action adds the events to what is recorded, and over the
sink it hands over the same events: to the same end, or to a failure of the sink. No other error
comes of it. -/
def Mirrors (sink : Sink τ) (recording : Action (Run σ (List Event)) α)
    (action : Action (Run σ τ) α) : Prop :=
  ∀ (r : Run σ (List Event)) (r' : Run σ τ), r.world = r'.world → r.summary = r'.summary →
    ∃ events, (recording.perform r).2.sink = r.sink ++ events ∧
      (∀ e, (recording.perform r).1 ≠ .error (.failed e)) ∧
      (action.perform r').2.sink = (sink.feed events r'.sink).2 ∧
      match (sink.feed events r'.sink).1 with
      | .ok () =>
        (action.perform r').1 = (recording.perform r).1 ∧
          (action.perform r').2.world = (recording.perform r).2.world ∧
          (action.perform r').2.summary = (recording.perform r).2.summary
      | .error failure => (action.perform r').1 = .error (.failed (.output failure))

namespace Mirrors

variable {sink : Sink τ}

theorem pure (a : α) : Mirrors (σ := σ) sink (Pure.pure a) (Pure.pure a) := by
  intro r r' hw hs
  exact ⟨[], by simp, by simp, rfl, rfl, hw.symm, hs.symm⟩

theorem update {f : Run σ (List Event) → α × Run σ (List Event)} {g : Run σ τ → α × Run σ τ}
    (hf : ∀ r, (f r).2.sink = r.sink) (hg : ∀ r, (g r).2.sink = r.sink)
    (h : ∀ r r', r.world = r'.world → r.summary = r'.summary →
      (g r').1 = (f r).1 ∧ (g r').2.world = (f r).2.world ∧ (g r').2.summary = (f r).2.summary) :
    Mirrors sink (.update f) (.update g) := by
  intro r r' hw hs
  obtain ⟨ha, hworld, hsummary⟩ := h r r' hw hs
  refine ⟨[], by simp [hf], by simp, by simp [hg, Sink.feed], ?_⟩
  exact ⟨by simp [ha], hworld, hsummary⟩

theorem ofHalting (answer : Except Halt α) :
    Mirrors (σ := σ) sink (.ofHalting answer) (.ofHalting answer) := by
  intro r r' hw hs
  refine ⟨[], by simp, ?_, rfl, rfl, hw.symm, hs.symm⟩
  intro e
  cases answer <;> simp

theorem bind {recording : Action (Run σ (List Event)) α} {action : Action (Run σ τ) α}
    {recordingNext : α → Action (Run σ (List Event)) β} {next : α → Action (Run σ τ) β}
    (h : Mirrors sink recording action) (hnext : ∀ a, Mirrors sink (recordingNext a) (next a)) :
    Mirrors sink (recording >>= recordingNext) (action >>= next) := by
  intro r r' hw hs
  obtain ⟨events, hrecord, hfailed, hsink, hend⟩ := h r r' hw hs
  rw [Action.perform_bind, Action.perform_bind]
  match hr : recording.perform r, hr' : action.perform r' with
  | (answer, v), (answer', v') =>
    rw [hr] at hrecord hfailed hend
    rw [hr'] at hsink hend
    cases hfeed : sink.feed events r'.sink with
    | mk fed u =>
      rw [hfeed] at hsink hend
      cases fed with
      | error failure =>
        -- the sink has failed: whatever is recorded later is never handed over
        obtain rfl : answer' = .error (.failed (.output failure)) := hend
        cases answer with
        | error stop =>
          refine ⟨events, hrecord, ?_, ?_, ?_⟩
          · intro e h
            cases h
            exact hfailed e rfl
          · rw [hfeed]
            exact hsink
          · rw [hfeed]
        | ok a =>
          obtain ⟨more, hmore, hmoreFailed, -, -⟩ :=
            hnext a v { v' with world := v.world, summary := v.summary } rfl rfl
          refine ⟨events ++ more, ?_, hmoreFailed, ?_, ?_⟩
          · rw [hmore, hrecord, List.append_assoc]
          · rw [Sink.feed_append, hfeed]
            exact hsink
          · rw [Sink.feed_append, hfeed]
      | ok _ =>
        obtain ⟨rfl, hworld, hsummary⟩ := hend
        cases answer' with
        | error stop =>
          refine ⟨events, hrecord, ?_, ?_, ?_⟩
          · intro e h
            cases h
            exact hfailed e rfl
          · rw [hfeed]
            exact hsink
          · rw [hfeed]
            exact ⟨rfl, hworld, hsummary⟩
        | ok a =>
          obtain ⟨more, hmore, hmoreFailed, hmoreSink, hmoreEnd⟩ :=
            hnext a v v' hworld.symm hsummary.symm
          obtain rfl : v'.sink = u := hsink
          refine ⟨events ++ more, ?_, hmoreFailed, ?_, ?_⟩
          · rw [hmore, hrecord, List.append_assoc]
          · rw [Sink.feed_append, hfeed]
            exact hmoreSink
          · rw [Sink.feed_append, hfeed]
            exact hmoreEnd

theorem unwinding {recording : Action (Run σ (List Event)) α} {action : Action (Run σ τ) α}
    (h : Mirrors sink recording action) (cleanup : σ → σ) :
    Mirrors sink (recording.unwinding fun r => { r with world := cleanup r.world })
      (action.unwinding fun r => { r with world := cleanup r.world }) := by
  intro r r' hw hs
  obtain ⟨events, hrecord, hfailed, hsink, hend⟩ := h r r' hw hs
  rw [Action.perform_unwinding_world, Action.perform_unwinding_world]
  refine ⟨events, hrecord, hfailed, hsink, ?_⟩
  cases hfeed : (sink.feed events r'.sink).1 with
  | error failure =>
    rw [hfeed] at hend
    exact hend
  | ok _ =>
    rw [hfeed] at hend
    obtain ⟨hanswer, hworld, hsummary⟩ := hend
    exact ⟨hanswer, by rw [hanswer, hworld], hsummary⟩

theorem emit (event : Event) :
    Mirrors (σ := σ) sink (Run.emit Sink.recorder event) (Run.emit sink event) := by
  intro r r' hw hs
  refine ⟨[event], rfl, ?_, ?_, ?_⟩
  · intro e h
    cases h
  · change (sink.receive event r'.sink).state = _
    rw [Sink.feed]
    cases (sink.receive event r'.sink).result <;> rfl
  · rw [Sink.feed]
    have hperform : ((Run.emit sink event).perform r').1 =
        (sink.receive event r'.sink).result.mapError fun failure => .failed (.output failure) := rfl
    rw [hperform]
    cases (sink.receive event r'.sink).result with
    | ok _ => exact ⟨rfl, hw.symm, hs.symm⟩
    | error failure => rfl

variable (host : Host σ) (b : Benchmark)

theorem printed (lines : List String) :
    Mirrors (σ := σ) sink (.update fun r => ((), r.print lines))
      (.update fun r => ((), r.print lines)) :=
  update (fun _ => rfl) (fun _ => rfl) fun _ _ hw hs => ⟨rfl, hw.symm, hs.symm⟩

theorem countedSkipped :
    Mirrors (σ := σ) sink (.update fun r => ((), r.countSkipped))
      (.update fun r => ((), r.countSkipped)) := by
  refine update (fun _ => rfl) (fun _ => rfl) fun r r' hw hs => ⟨rfl, hw.symm, ?_⟩
  simp only [Run.countSkipped, hs]

theorem countedRow (row : Row) :
    Mirrors (σ := σ) sink (.update fun r => ((), r.countRow row))
      (.update fun r => ((), r.countRow row)) := by
  refine update (fun _ => rfl) (fun _ => rfl) fun r r' hw hs => ⟨rfl, hw.symm, ?_⟩
  simp only [Run.countRow, hs]

theorem measureScenario (rig : Rig σ) (s : Scenario) (pattern : AccessPattern) :
    Mirrors sink (b.measureScenario host rig s pattern) (b.measureScenario host rig s pattern) := by
  intro r r' hw hs
  have hnone := rig.repeatTrials_ne_failed host.space b.config.iterations s pattern r.world
  rw [Benchmark.perform_measureScenario, Benchmark.perform_measureScenario, ← hw]
  match (rig.repeatTrials host.space b.config.iterations s pattern).perform r.world, hnone with
  | (.ok (row, lines), world), _ =>
    exact ⟨[], by simp [Run.print], by simp, rfl, rfl, rfl, hs.symm⟩
  | (.error stop, world), hnone =>
    refine ⟨[], by simp, ?_, rfl, rfl, rfl, hs.symm⟩
    intro e h
    cases h
    exact hnone e rfl

theorem runScenarios (rig : Rig σ) (title : String) (cache : PermutationCache)
    (scenarios : List Scenario) :
    Mirrors sink (b.runScenarios host Sink.recorder rig title cache scenarios)
      (b.runScenarios host sink rig title cache scenarios) := by
  -- the next scenario finds the permutation that this one leaves in the cache
  induction scenarios generalizing cache with
  | nil => exact pure ()
  | cons s rest ih =>
    rw [Benchmark.runScenarios, Benchmark.runScenarios]
    apply (ofHalting s.units).bind
    intro units
    match s.kind.materialize host.canIndex units b.config.randomSeed cache with
    | (.error e, _) =>
      apply (printed _).bind
      intro _
      apply (emit _).bind
      intro _
      exact countedSkipped
    | (.ok pattern, cache) =>
      apply (measureScenario host b rig s pattern).bind
      intro row
      apply (countedRow row).bind
      intro _
      apply (emit _).bind
      intro _
      exact ih cache

theorem runMatrix (rig : Rig σ) (matrix : Matrix) :
    Mirrors sink (b.runMatrix host Sink.recorder rig matrix) (b.runMatrix host sink rig matrix) := by
  induction matrix with
  | nil => exact pure ()
  | cons s rest ih =>
    rw [Benchmark.runMatrix, Benchmark.runMatrix]
    apply (emit _).bind
    intro _
    apply (runScenarios host b rig s.title none s.scenarios).bind
    intro _
    exact ih

theorem runMemory :
    Mirrors sink (b.runMemory host Sink.recorder) (b.runMemory host sink) := by
  apply (emit _).bind
  intro _
  exact runMatrix host b host.memoryRig b.config.memory.matrix

theorem runFileMatrix (cache : CacheControl) (fixture : FixtureFile) :
    Mirrors sink (b.runFileMatrix host Sink.recorder cache fixture)
      (b.runFileMatrix host sink cache fixture) := by
  apply (ofHalting (b.config.file.matrix fixture.length)).bind
  intro m
  exact runMatrix host b (host.fileRig fixture.path cache) m

theorem skipFile (e : BenchError) :
    Mirrors (σ := σ) sink (Benchmark.skipFile Sink.recorder e) (Benchmark.skipFile sink e) := by
  apply (printed _).bind
  intro _
  apply (emit _).bind
  intro _
  exact countedSkipped

theorem runFile : Mirrors sink (b.runFile host Sink.recorder) (b.runFile host sink) := by
  refine bind (update (fun _ => rfl) (fun _ => rfl) ?_) ?_
  · intro r r' hw hs
    exact ⟨by rw [hw], hw.symm, hs.symm⟩
  intro cache
  apply (emit _).bind
  intro _
  -- the fixture depends on the surroundings alone, which are equal as long as no sink has failed
  refine bind (update (fun _ => rfl) (fun _ => rfl) ?_) ?_
  · intro r r' hw hs
    exact ⟨by rw [hw], by rw [hw], hs.symm⟩
  intro fixture
  cases fixture with
  | error e => exact skipFile e
  | ok fixture => exact (runFileMatrix host b cache fixture).unwinding (host.discardFixture fixture)

theorem runSuites (suites : Suites) :
    Mirrors sink (b.runSuites host Sink.recorder suites) (b.runSuites host sink suites) := by
  rw [Benchmark.runSuites, Benchmark.runSuites]
  cases suites
  · exact (runMemory host b).bind fun _ => (runFile host b).bind fun _ => emit _
  · exact (runMemory host b).bind fun _ => emit _
  · exact (runFile host b).bind fun _ => emit _

end Mirrors

namespace Benchmark

variable (host : Host σ) (sink : Sink τ) (b : Benchmark) (suites : Suites) (w : σ) (t : τ)

/-- The events of a run over a sink that never fails. -/
def events : List Event := (b.run host Sink.recorder suites w []).2.sink

/-- The calls that a run makes on a sink. -/
def calls : List Sink.Call := (b.run host sink.traced suites w (t, [])).2.sink.2

theorem run_recorder_ne_failed (e : BenchError) :
    (b.run host Sink.recorder suites w []).1 ≠ .error (.failed e) := by
  have hmirrors : Mirrors Sink.recorder (b.runSuites host Sink.recorder suites)
      (b.runSuites host Sink.recorder suites) := Mirrors.runSuites host b suites
  obtain ⟨-, -, hfailed, -, -⟩ :=
    hmirrors { world := w, sink := [] } { world := w, sink := [] } rfl rfl
  intro h
  apply hfailed e
  cases hanswer : ((b.runSuites host Sink.recorder suites).perform { world := w, sink := [] }).1 with
  | ok _ => simp [run, hanswer, Except.map] at h
  | error stop => simpa [run, hanswer, Except.map] using h

/-- A run over a sink hands over the events of a recorded run. It ends as that one does unless the
sink fails, and otherwise with the failure. -/
theorem run_eq_feed :
    (b.run host sink suites w t).2.sink = (sink.feed (b.events host suites w) t).2 ∧
      (b.run host sink suites w t).1 =
        match (sink.feed (b.events host suites w) t).1 with
        | .ok () => (b.run host Sink.recorder suites w []).1
        | .error failure => .error (.failed (.output failure)) := by
  have hmirrors : Mirrors sink (b.runSuites host Sink.recorder suites)
      (b.runSuites host sink suites) := Mirrors.runSuites host b suites
  obtain ⟨added, hrecord, -, hsink, hend⟩ :=
    hmirrors { world := w, sink := [] } { world := w, sink := t } rfl rfl
  have hevents : b.events host suites w = added := by
    rw [← List.nil_append added]
    exact hrecord
  rw [hevents]
  refine ⟨hsink, ?_⟩
  cases hfeed : (sink.feed added t).1 with
  | ok _ =>
    rw [hfeed] at hend
    obtain ⟨hanswer, -, hsummary⟩ := hend
    simp only [run, hanswer, hsummary]
  | error failure =>
    rw [hfeed] at hend
    simp only [run, hend, Except.map]

theorem calls_eq : b.calls host sink suites w t = sink.calls (b.events host suites w) t := by
  rw [calls, (b.run_eq_feed host sink.traced suites w (t, [])).1, Sink.feed_traced,
    List.nil_append]

theorem run_failed_iff (e : BenchError) :
    (b.run host sink suites w t).1 = .error (.failed e) ↔
      ∃ failure, e = .output failure ∧
        (sink.feed (b.events host suites w) t).1 = .error failure := by
  rw [(b.run_eq_feed host sink suites w t).2]
  cases (sink.feed (b.events host suites w) t).1 with
  | ok _ =>
    constructor
    · intro h
      exact absurd h (b.run_recorder_ne_failed host suites w e)
    · intro h
      obtain ⟨failure, -, h⟩ := h
      cases h
  | error failure =>
    constructor
    · intro h
      exact ⟨failure, by simpa using h.symm, rfl⟩
    · intro h
      obtain ⟨_, rfl, h⟩ := h
      cases h
      rfl

theorem run_traced :
    (b.run host sink.traced suites w (t, [])).1 = (b.run host sink suites w t).1 ∧
      (b.run host sink.traced suites w (t, [])).2.sink.1 = (b.run host sink suites w t).2.sink := by
  obtain ⟨htraced, htracedEnd⟩ := b.run_eq_feed host sink.traced suites w (t, [])
  obtain ⟨hplain, hplainEnd⟩ := b.run_eq_feed host sink suites w t
  rw [Sink.feed_traced] at htraced htracedEnd
  rw [htraced, htracedEnd, hplain, hplainEnd]
  exact ⟨rfl, rfl⟩

end Benchmark

end AccessBench
