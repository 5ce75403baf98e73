import AccessBench.Proofs.Benchmark.Completion
import AccessBench.Proofs.Benchmark.Sections
import AccessBench.Proofs.Report.Collected

/-!
How runs finish their report. A run that does not halt ends its report once, as the last thing that
it reports, so a report that is collected first is written once and after everything has been run:
the place that it is written to cannot cut a run short.
-/

namespace AccessBench

variable {σ τ : Type}

namespace Run

/-- Nothing that has been recorded of a run ends its report. -/
def Unfinished (r : Run σ (List Event)) : Prop := ∀ event ∈ r.sink, event.banner? = none

theorem unfinished_emit {event : Event} (h : event.banner? = none) :
    (Run.emit (σ := σ) Sink.recorder event).Preserves Unfinished := by
  intro r hr
  exact List.forall_mem_append.mpr ⟨hr, List.forall_mem_singleton.mpr h⟩

end Run

open Run (Unfinished)

namespace Benchmark

/-- A run up to the end of its report. -/
def runParts (host : Host σ) (sink : Sink τ) (b : Benchmark) (suites : Suites) :
    Action (Run σ τ) Unit :=
  match suites with
  | .all => do
    b.runMemory host sink
    b.runFile host sink
  | .memory => b.runMemory host sink
  | .file => b.runFile host sink

/-- What a run reports before the end of its report, how it gets there and what it leaves. -/
def reported (host : Host σ) (b : Benchmark) (suites : Suites) (w : σ) :
    Except Stop Unit × Run σ (List Event) :=
  (b.runParts host Sink.recorder suites).perform { world := w, sink := [] }

section

variable {host : Host σ} {b : Benchmark} {rig : Rig σ}

theorem unfinished_measureScenario (s : Scenario) (pattern : AccessPattern) :
    (b.measureScenario host rig s pattern).Preserves Unfinished := by
  intro r hr
  rw [perform_measureScenario]
  split <;> exact hr

theorem unfinished_runScenarios (title : String) (cache : PermutationCache)
    (scenarios : List Scenario) :
    (b.runScenarios host Sink.recorder rig title cache scenarios).Preserves Unfinished := by
  induction scenarios generalizing cache with
  | nil => exact .pure ()
  | cons s rest ih =>
    refine Action.Preserves.bind (.ofAnswer _) fun units => ?_
    match s.kind.materialize host.canIndex units b.config.randomSeed cache with
    | (.error e, _) =>
      exact Action.Preserves.bind (.update fun _ hr => hr) fun _ =>
        (Run.unfinished_emit rfl).bind fun _ => .update fun _ hr => hr
    | (.ok pattern, kept) =>
      exact (unfinished_measureScenario s pattern).bind fun row =>
        Action.Preserves.bind (.update fun _ hr => hr) fun _ =>
          (Run.unfinished_emit rfl).bind fun _ => ih kept

theorem unfinished_runMatrix (rig : Rig σ) (m : Matrix) :
    (b.runMatrix host Sink.recorder rig m).Preserves Unfinished := by
  induction m with
  | nil => exact .pure ()
  | cons part rest ih =>
    exact (Run.unfinished_emit rfl).bind fun _ =>
      (unfinished_runScenarios part.title none part.scenarios).bind fun _ => ih

theorem unfinished_runMemory : (b.runMemory host Sink.recorder).Preserves Unfinished :=
  (Run.unfinished_emit rfl).bind fun _ =>
    unfinished_runMatrix host.memoryRig b.config.memory.matrix

theorem unfinished_runOverFixture (cache : CacheControl) (fixture : FixtureFile) :
    (b.runOverFixture host Sink.recorder cache fixture).Preserves Unfinished := by
  refine Action.Preserves.unwinding ?_ fun _ hr => hr
  exact Action.Preserves.bind (.ofAnswer _) fun m => unfinished_runMatrix _ m

theorem unfinished_skipFile (e : BenchError) :
    (skipFile (σ := σ) Sink.recorder e).Preserves Unfinished :=
  Action.Preserves.bind (.update fun _ hr => hr) fun _ =>
    (Run.unfinished_emit rfl).bind fun _ => .update fun _ hr => hr

theorem unfinished_runFile : (b.runFile host Sink.recorder).Preserves Unfinished := by
  refine Action.Preserves.bind (.update fun _ hr => hr) fun cache => ?_
  refine (Run.unfinished_emit rfl).bind fun _ => ?_
  refine Action.Preserves.bind (.update fun _ hr => hr) fun fixture => ?_
  match fixture with
  | .error e => exact unfinished_skipFile e
  | .ok fixture => exact unfinished_runOverFixture cache fixture

end

variable (host : Host σ) (b : Benchmark) (suites : Suites) (w : σ)

theorem unfinished_reported : (b.reported host suites w).2.Unfinished := by
  have hall : (b.runParts host Sink.recorder suites).Preserves Unfinished := by
    cases suites with
    | all => exact unfinished_runMemory.bind fun _ => unfinished_runFile
    | memory => exact unfinished_runMemory
    | file => exact unfinished_runFile
  exact hall { world := w, sink := [] } nofun

theorem mirrors_runParts (sink : Sink τ) :
    Mirrors sink (b.runParts host Sink.recorder suites) (b.runParts host sink suites) := by
  cases suites with
  | all => exact (Mirrors.runMemory host b).bind fun _ => Mirrors.runFile host b
  | memory => exact Mirrors.runMemory host b
  | file => exact Mirrors.runFile host b

theorem runSuites_eq_bind (sink : Sink τ) :
    b.runSuites host sink suites =
      (b.runParts host sink suites >>= fun _ => Run.emit sink (.finished completionBanner)) := by
  cases suites with
  | all => rw [runSuites_all, runParts, bind_assoc]
  | memory => exact runSuites_memory sink
  | file => exact runSuites_file sink

theorem reported_ne_failed (e : BenchError) :
    (b.reported host suites w).1 ≠ .error (.failed e) := by
  obtain ⟨-, -, hfailed, -, -⟩ := b.mirrors_runParts host suites Sink.recorder
    { world := w, sink := [] } { world := w, sink := [] } rfl rfl
  exact hfailed e

section

variable {sink : Sink τ} {t u : τ}
  (hfeed : sink.feed (b.reported host suites w).2.sink t = (.ok (), u))

include hfeed

/-- Over a sink that takes all that is reported before the end, a run gets as far as a recorded
one. -/
theorem perform_runParts :
    ∃ r : Run σ τ, (b.runParts host sink suites).perform { world := w, sink := t } =
        ((b.reported host suites w).1, r) ∧
      r.world = (b.reported host suites w).2.world ∧
      r.summary = (b.reported host suites w).2.summary ∧ r.sink = u := by
  obtain ⟨added, hrecord, -, hsink, hend⟩ := b.mirrors_runParts host suites sink
    { world := w, sink := [] } { world := w, sink := t } rfl rfl
  have hadded : (b.reported host suites w).2.sink = added := by
    rw [← List.nil_append added]
    exact hrecord
  rw [hadded] at hfeed
  rw [hfeed] at hsink hend
  obtain ⟨hanswer, hworld, hsummary⟩ := hend
  exact ⟨_, Prod.ext hanswer rfl, hworld, hsummary, hsink⟩

theorem run_of_done (hdone : (b.reported host suites w).1 = .ok ()) :
    let reply := sink.receive (.finished completionBanner) u
    let ended := b.run host sink suites w t
    ended.1 = (reply.result.mapError fun failure => Stop.failed (.output failure)).map
        (fun () => (b.reported host suites w).2.summary) ∧
      ended.2.sink = reply.state ∧ ended.2.world = (b.reported host suites w).2.world := by
  intro reply ended
  obtain ⟨r, hperform, hworld, hsummary, rfl⟩ := b.perform_runParts host suites w hfeed
  have hruns : (b.runSuites host sink suites).perform { world := w, sink := t } =
      (Run.emit sink (.finished completionBanner)).perform r := by
    rw [runSuites_eq_bind, Action.perform_bind, hperform, hdone]
  have hended : ended = ((reply.result.mapError fun failure => Stop.failed (.output failure)).map
      (fun () => r.summary), { r with sink := reply.state }.print reply.notices) := by
    change b.run host sink suites w t = _
    rw [run, hruns]
    rfl
  rw [hended, hsummary]
  exact ⟨rfl, rfl, hworld⟩

theorem run_of_stop {stop : Stop} (hstop : (b.reported host suites w).1 = .error stop) :
    let ended := b.run host sink suites w t
    ended.1 = .error stop ∧ ended.2.sink = u ∧
      ended.2.world = (b.reported host suites w).2.world := by
  intro ended
  obtain ⟨r, hperform, hworld, -, rfl⟩ := b.perform_runParts host suites w hfeed
  have hruns : (b.runSuites host sink suites).perform { world := w, sink := t } =
      (.error stop, r) := by
    rw [runSuites_eq_bind, Action.perform_bind, hperform, hstop]
  have hended : ended = (.error stop, r) := by
    change b.run host sink suites w t = _
    rw [run, hruns]
    rfl
  rw [hended]
  exact ⟨rfl, rfl, hworld⟩

end

/-- The end of the report is the last event, unless the run has halted before it. -/
theorem events_eq :
    b.events host suites w = (b.reported host suites w).2.sink ++
      match (b.reported host suites w).1 with
      | .ok () => [.finished completionBanner]
      | .error _ => [] := by
  have hfeed := Sink.feed_recorder (b.reported host suites w).2.sink []
  rw [List.nil_append] at hfeed
  cases hreported : (b.reported host suites w).1 with
  | ok _ => exact (b.run_of_done host suites w hfeed hreported).2.1
  | error stop =>
    rw [List.append_nil]
    exact (b.run_of_stop host suites w hfeed hreported).2.1

section

variable {ω : Type} (writer : Writer ω) (out : ω) {format : Format} (hformat : format ≠ .text)
  (iterations : UInt64)

include hformat

/-- A collected report takes all that a run reports before the end and leaves its place alone. -/
theorem feed_reported :
    let start := Report.start format iterations out
    let reached := (Report.sink writer).after (b.reported host suites w).2.sink start
    (Report.sink writer).feed (b.reported host suites w).2.sink start = (.ok (), reached) ∧
      reached.out = out := by
  intro start reached
  obtain ⟨hfeed, hout⟩ := Report.feed_of_unfinished writer
    (Report.isSome_endText?_start hformat iterations out) (b.unfinished_reported host suites w)
  exact ⟨hfeed, hout.trans (Report.out_start format iterations out)⟩

theorem run_sink_eq_after :
    (b.run host (Report.sink writer) suites w (.start format iterations out)).2.sink =
      (Report.sink writer).after (b.events host suites w) (.start format iterations out) := by
  obtain ⟨hfeed, -⟩ := b.feed_reported host suites w writer out hformat iterations
  rw [events_eq]
  cases hreported : (b.reported host suites w).1 with
  | ok _ =>
    rw [Sink.after_append_singleton]
    exact (b.run_of_done host suites w hfeed hreported).2.1
  | error stop =>
    rw [List.append_nil]
    exact (b.run_of_stop host suites w hfeed hreported).2.1

theorem content_run :
    (b.run host (Report.sink writer) suites w (.start format iterations out)).2.sink.content =
      (b.events host suites w).foldl Report.collect (.start format iterations ()) := by
  rw [b.run_sink_eq_after host suites w writer out hformat iterations, Report.content_after,
    Report.content_start]

/-- A collected report is written once, as the last thing that a run does, and only the answer to
this decides whether the run fails. -/
theorem run_collected :
    let start := Report.start format iterations out
    let ended := b.run host (Report.sink writer) suites w start
    let calls := b.calls host (Report.sink writer) suites w start
    let parts := b.reported host suites w
    ended.2.world = parts.2.world ∧
      match parts.1 with
      | .error stop =>
        ended.1 = .error stop ∧ ended.2.sink.out = out ∧
          calls = parts.2.sink.map fun event => ⟨event, .ok ()⟩
      | .ok () => ∃ text, ended.2.sink.endText? = some text ∧
          ended.2.sink.out = (writer.write text out).2 ∧
          ended.1 = ((writer.write text out).1.mapError fun failure =>
            Stop.failed (.output failure)).map (fun () => parts.2.summary) ∧
          calls = (parts.2.sink.map fun event => ⟨event, .ok ()⟩) ++
            [⟨.finished completionBanner, (writer.write text out).1⟩] := by
  intro start ended calls parts
  obtain ⟨hfeed, hout⟩ := b.feed_reported host suites w writer out hformat iterations
  have hcalls : calls = (Report.sink writer).calls (b.events host suites w) start :=
    b.calls_eq host _ suites w start
  rw [events_eq, Sink.calls_append hfeed] at hcalls
  cases hreported : parts.1 with
  | error stop =>
    obtain ⟨hresult, hsink, hworld⟩ := b.run_of_stop host suites w hfeed hreported
    rw [hreported, Sink.calls, List.append_nil] at hcalls
    exact ⟨hworld, hresult, (congrArg Report.out hsink).trans hout, hcalls⟩
  | ok _ =>
    obtain ⟨hresult, hsink, hworld⟩ := b.run_of_done host suites w hfeed hreported
    obtain ⟨hreached, hkept, text, htext, hanswer, hplace⟩ :=
      Report.receive_finished_after writer out hformat iterations parts.2.sink completionBanner
    rw [hout] at hanswer hplace
    have hended : ended.2.sink.endText? = some text := by
      rw [hsink, ← Report.endText?_content]
      exact (congrArg Report.endText? hkept).trans htext
    refine ⟨hworld, text, hended, (congrArg Report.out hsink).trans hplace, ?_, ?_⟩
    · rw [← hanswer]
      exact hresult
    · rw [hreported, Sink.calls_singleton] at hcalls
      rw [← hanswer]
      exact hcalls

theorem endText?_of_run {summary : Summary}
    (hended : (b.run host (Report.sink Page.writer) suites w (.start format iterations {})).1 =
      .ok summary) :
    (b.run host (Report.sink Page.writer) suites w (.start format iterations {})).2.sink.endText? =
      some (b.run host (Report.sink Page.writer) suites w
        (.start format iterations {})).2.sink.out.text := by
  obtain ⟨-, hend⟩ := b.run_collected host suites w Page.writer {} hformat iterations
  cases hreported : (b.reported host suites w).1 with
  | error stop =>
    rw [hreported] at hend
    rw [hend.1] at hended
    cases hended
  | ok _ =>
    rw [hreported] at hend
    obtain ⟨text, htext, hout, -⟩ := hend
    rw [htext, hout, (Page.write_blank text).2]

end

/-- A document or a sheet is written once, as the last thing that a run does: no call on it fails
before and nothing has reached its place by then. Whatever the place answers, everything is run as
for a report on an unbounded page, with the same report collected. More generally, each end of such
a report offers the one text that the other events before it make, and changes nothing of what is
collected. -/
theorem run_writes_once {ω : Type} (writer : Writer ω) (out : ω) {format : Format}
    (hformat : format ≠ .text) (iterations : UInt64) :
    let start := Report.start format iterations out
    let ended := b.run host (Report.sink writer) suites w start
    let calls := b.calls host (Report.sink writer) suites w start
    let perfect := b.run host (Report.sink Page.writer) suites w (.start format iterations {})
    ended.2.world = perfect.2.world ∧ ended.2.sink.content = perfect.2.sink.content ∧
      ended.2.sink.Covers iterations (b.events host suites w) ∧
      (∃ before, (∀ event ∈ before, event.banner? = none) ∧
        ((Report.sink writer).after before start).out = out ∧
        match perfect.1 with
        | .error stop =>
          (∃ reason, stop = .halted reason) ∧ ended.1 = .error stop ∧ ended.2.sink.out = out ∧
            b.events host suites w = before ∧ calls = before.map fun event => ⟨event, .ok ()⟩
        | .ok summary => ∃ text, ended.2.sink.endText? = some text ∧
            perfect.2.sink.out.text = text ∧ ended.2.sink.out = (writer.write text out).2 ∧
            ended.1 = ((writer.write text out).1.mapError fun failure =>
              Stop.failed (.output failure)).map (fun () => summary) ∧
            b.events host suites w = before ++ [.finished completionBanner] ∧
            calls = (before.map fun event => ⟨event, .ok ()⟩) ++
              [⟨.finished completionBanner, (writer.write text out).1⟩]) ∧
      ∀ events banner,
        let reached := (Report.sink writer).after events start
        let kept := (Event.unfinished events).foldl Report.collect (.start format iterations ())
        let reply := reached.receive writer (.finished banner)
        reached.content = kept ∧ reply.state.content = kept ∧
          ∃ text, kept.endText? = some text ∧ reply.result = (writer.write text reached.out).1 ∧
            reply.state.out = (writer.write text reached.out).2 := by
  intro start ended calls perfect
  have hcontent : ended.2.sink.content = perfect.2.sink.content := by
    rw [b.content_run host suites w writer out hformat iterations,
      b.content_run host suites w Page.writer {} hformat iterations]
  have hcovers : ended.2.sink.Covers iterations (b.events host suites w) := by
    have hsink := b.run_sink_eq_after host suites w writer out hformat iterations
    rw [hsink]
    exact Report.covers_after writer out iterations hformat
      (rowsFollowSection_events host b suites w)
  obtain ⟨-, hout⟩ := b.feed_reported host suites w writer out hformat iterations
  obtain ⟨hworld, hend⟩ := b.run_collected host suites w writer out hformat iterations
  obtain ⟨hpage, hpageEnd⟩ := b.run_collected host suites w Page.writer {} hformat iterations
  have hevents := b.events_eq host suites w
  refine ⟨hworld.trans hpage.symm, hcontent, hcovers, ?_,
    Report.receive_finished_after writer out hformat iterations⟩
  refine ⟨(b.reported host suites w).2.sink, b.unfinished_reported host suites w, hout, ?_⟩
  cases hreported : (b.reported host suites w).1 with
  | error stop =>
    rw [hreported] at hend hpageEnd hevents
    obtain ⟨hresult, hplace, hcalls⟩ := hend
    have hperfect : perfect.1 = .error stop := hpageEnd.1
    have hhalted : ∃ reason, stop = .halted reason := by
      cases stop with
      | failed e => exact absurd hreported (b.reported_ne_failed host suites w e)
      | halted reason => exact ⟨reason, rfl⟩
    rw [List.append_nil] at hevents
    rw [hperfect]
    exact ⟨hhalted, hresult, hplace, hevents, hcalls⟩
  | ok _ =>
    rw [hreported] at hend hpageEnd hevents
    obtain ⟨text, htext, hplace, hresult, hcalls⟩ := hend
    obtain ⟨other, hother, hwritten, hperfect, -⟩ := hpageEnd
    have hsame : text = other := by
      have hsome : some text = some other := by
        rw [← htext, ← hother, ← Report.endText?_content, hcontent, Report.endText?_content]
      exact Option.some.inj hsome
    obtain ⟨htaken, hshown⟩ := Page.write_blank text
    rw [← hsame] at hwritten hperfect
    rw [htaken] at hperfect
    have hperfect : perfect.1 = .ok (b.reported host suites w).2.summary := hperfect
    rw [hperfect]
    exact ⟨text, htext, (congrArg Page.text hwritten).trans hshown, hplace, hresult, hevents,
      hcalls⟩

/-- A place that takes nothing. -/
def closedWriter : Writer Unit := ⟨fun _ out => (.error Page.sinkFull, out)⟩

theorem run_writes_once_closed : Format.csv ≠ .text ∧
    ((crowded 3).run stillHost (Report.sink closedWriter) .memory {} (.start .csv 3 ())).1 =
      .error (.failed (.output Page.sinkFull)) ∧
    ((crowded 3).run stillHost (Report.sink closedWriter) .memory {}
        (.start .csv 3 ())).2.sink.content =
      ((crowded 3).run stillHost (Report.sink Page.writer) .memory {}
        (.start .csv 3 {})).2.sink.content := by
  have hformat : Format.csv ≠ .text := by decide
  have hrefused : ((crowded 3).run stillHost (Report.sink closedWriter) .memory {}
      (.start .csv 3 ())).1 = .error (.failed (.output Page.sinkFull)) := by decide +kernel
  obtain ⟨-, hcontent, -⟩ :=
    run_writes_once stillHost (crowded 3) .memory {} closedWriter () hformat 3
  exact ⟨hformat, hrefused, hcontent⟩

end Benchmark

end AccessBench
