import AccessBench.Proofs.Benchmark.Finish
import AccessBench.Proofs.Benchmark.Iterations
import AccessBench.Proofs.Config.Validation
import AccessBench.Proofs.Program.Loading
import Mathlib

/-!
From the arguments to the end of the program. A refused configuration ends it before anything has
been run; with a valid one it is a run of exactly that configuration, and what the report tells of
the number of trials is what was asked for.
-/

namespace AccessBench

namespace Program

/-- The program, with the way in which it runs an invocation under its configuration left open. -/
def execBy (run : Invocation → Config → Store → Exit) (arguments : List String) (s : Store) :
    Exit :=
  match CommandLine.read arguments with
  | .error stop => Exit.ofUsage stop s
  | .ok i =>
    match i.load s with
    | .error fault => Exit.ofFault fault "" [] s
    | .ok c => run i c s

theorem exec_eq_execBy (platform : Platform) : exec platform = execBy (runWith platform) := rfl

section

variable {run : Invocation → Config → Store → Exit} {arguments : List String} {i : Invocation}
  {s : Store}

theorem execBy_of_refused {fault : Fault} (hread : CommandLine.read arguments = .ok i)
    (h : i.Refused s fault) : execBy run arguments s = ⟨1, "", fault.lines, s⟩ := by
  simp only [execBy, hread, Invocation.load_eq_error_iff.mpr h, Exit.ofFault, List.nil_append]

theorem execBy_of_load {c : Config} (hread : CommandLine.read arguments = .ok i)
    (h : i.load s = .ok c) : execBy run arguments s = run i c s := by
  simp only [execBy, hread, h]

end

/-- The end of the program after a run. -/
def exitOf : Except Stop Summary × Run Machine (Report Page) → Exit
  | (.error (.failed e), r) =>
    Exit.ofFault ⟨.running, e⟩ r.sink.out.text r.diagnostics r.world.store
  | (.error (.halted reason), r) =>
    Exit.ofHalt reason r.sink.out.text r.diagnostics r.world.store
  | (.ok _, r) => ⟨0, r.sink.out.text, r.diagnostics, r.world.store⟩

theorem code_ofHalt (reason : Halt) (output : String) (diagnostics : List String) (s : Store) :
    (Exit.ofHalt reason output diagnostics s).code ≠ 0 := by
  simp only [Exit.ofHalt]
  split <;> decide

theorem output_of_code {ended : Except Stop Summary × Run Machine (Report Page)}
    (h : (exitOf ended).code = 0) :
    (∃ summary, ended.1 = .ok summary) ∧ (exitOf ended).output = ended.2.sink.out.text := by
  obtain ⟨result, r⟩ := ended
  cases result with
  | ok summary => exact ⟨⟨summary, rfl⟩, rfl⟩
  | error stop =>
    cases stop with
    | failed e =>
      have hcode : (exitOf (.error (.failed e), r)).code = 1 := rfl
      rw [hcode] at h
      exact absurd h Nat.one_ne_zero
    | halted reason => exact absurd h (code_ofHalt reason _ _ _)

section

variable (platform : Platform) (i : Invocation) (c : Config) (s : Store)

/-- The run of an invocation, over a page for its report. -/
def pageRun : Except Stop Summary × Run Machine (Report Page) :=
  (i.benchmark c).run (Machine.host platform) (Report.sink Page.writer) i.suites { store := s }
    (.start i.format c.iterations {})

/-- All that the run of an invocation reports. -/
def reports : List Event :=
  (i.benchmark c).events (Machine.host platform) i.suites { store := s }

variable {i c}

theorem trials_of_mem_reports (hvalid : c.validate = .ok ()) {row : Row}
    (hrow : row ∈ (reports platform i c s).filterMap Event.row?) (hfailed : row.failed = false) :
    row.trials = c.iterations :=
  Benchmark.trials_of_mem_rows (Config.iterations_ne_zero hvalid) hrow hfailed

theorem runWith_eq_exitOf : runWith platform i c s = exitOf (pageRun platform i c s) := rfl

/-- The document that a run collects tells its iterations, and so does every row of it that is not
of a failure. It is what a run that ends well writes. -/
theorem document_of_runWith (hformat : i.format = .json) (hvalid : c.validate = .ok ()) :
    ∃ kept, (pageRun platform i c s).2.sink = .document kept ∧
      kept.document.iterations = c.iterations ∧
      (∀ part ∈ kept.document.sections, ∀ row ∈ part.rows, row.failed = false →
        row.trials = c.iterations) ∧
      ((runWith platform i c s).code = 0 →
        (runWith platform i c s).output = kept.document.toText ++ "\n") := by
  have hcollected : i.format ≠ .text := by
    rw [hformat]
    decide
  have hsink : (pageRun platform i c s).2.sink =
      (Report.sink Page.writer).after (reports platform i c s) (.start i.format c.iterations {}) :=
    Benchmark.run_sink_eq_after _ _ _ _ Page.writer {} hcollected c.iterations
  let kept := (Collection.sink Page.writer).after (reports platform i c s)
    { document := { iterations := c.iterations }, out := {} }
  have hkept : (pageRun platform i c s).2.sink = .document kept := by
    rw [hsink, hformat]
    exact Report.after_document _ _
  have hcovers : (pageRun platform i c s).2.sink.Covers c.iterations (reports platform i c s) := by
    rw [hsink]
    exact Report.covers_after Page.writer {} c.iterations hcollected
      (Benchmark.rowsFollowSection_events _ _ _ _)
  rw [hkept] at hcovers
  obtain ⟨hdocument, hrows⟩ := hcovers
  refine ⟨kept, hkept, ?_, ?_, ?_⟩
  · rw [hdocument]
    rfl
  · intro part hpart row hrow hfailed
    have hreported : row ∈ (reports platform i c s).filterMap Event.row? := by
      rw [← hrows]
      exact List.mem_flatMap.mpr ⟨part, hpart, hrow⟩
    exact trials_of_mem_reports platform s hvalid hreported hfailed
  · rw [runWith_eq_exitOf]
    intro hcode
    obtain ⟨⟨summary, hended⟩, houtput⟩ := output_of_code hcode
    have htext : (pageRun platform i c s).2.sink.endText? =
        some (pageRun platform i c s).2.sink.out.text :=
      Benchmark.endText?_of_run _ _ _ _ hcollected c.iterations hended
    rw [hkept] at htext
    have hwritten : kept.document.toText ++ "\n" = (Report.document kept).out.text :=
      Option.some.inj htext
    rw [houtput, hkept, hwritten]

end

/-- A configuration is read, overridden by the command line and then checked, all before anything is
run: whatever a run would do, a refusal prints nothing and leaves the files as they are. Otherwise
the program is the run of exactly the configuration that results, and its report tells the
iterations of that. Two files that differ only in what the command line overrides come to the same
end, also where one of them is not valid by itself. -/
theorem exec_configured (platform : Platform) {arguments : List String} {i : Invocation}
    (hread : CommandLine.read arguments = .ok i) (s : Store) :
    exec platform = execBy (runWith platform) ∧
      (∀ fault, i.load s = .error fault ↔ i.Refused s fault) ∧
      (∀ fault, i.Refused s fault → ∀ run, execBy run arguments s = ⟨1, "", fault.lines, s⟩) ∧
      (∀ c, i.load s = .ok c ↔ ∃ base, i.Reads s base ∧ c.validate = .ok () ∧
        c = { base with
          iterations := i.iterations.getD base.iterations
          randomSeed := i.seed.getD base.randomSeed
          file := { base.file with path := i.path.getD base.file.path } }) ∧
      (∀ c, i.load s = .ok c →
        (∀ run, execBy run arguments s = run i c s) ∧
        exec platform arguments s = exitOf (pageRun platform i c s) ∧ (i.benchmark c).config = c ∧
        (∀ row ∈ (reports platform i c s).filterMap Event.row?, row.failed = false →
          row.trials = c.iterations) ∧
        (i.format = .json → ∃ kept, (pageRun platform i c s).2.sink = .document kept ∧
          kept.document.iterations = c.iterations ∧
          (∀ part ∈ kept.document.sections, ∀ row ∈ part.rows, row.failed = false →
            row.trials = c.iterations) ∧
          ((exec platform arguments s).code = 0 →
            (exec platform arguments s).output = kept.document.toText ++ "\n"))) ∧
      ∀ (other : Option String) (arguments' : List String) (s' : Store) (base base' : Config),
        CommandLine.read arguments' = .ok { i with config := other } → i.Reads s base →
        { i with config := other }.Reads s' base' → i.Alike base base' →
          { i with config := other }.load s' = i.load s ∧
            (s' = s → exec platform arguments' s' = exec platform arguments s) := by
  refine ⟨rfl, fun _ => Invocation.load_eq_error_iff, ?_, ?_, ?_, ?_⟩
  · intro fault hrefused run
    exact execBy_of_refused hread hrefused
  · intro c
    rw [Invocation.load_eq_ok_iff]
    constructor
    · rintro ⟨base, hreads, hc, hvalid⟩
      exact ⟨base, hreads, hvalid, hc⟩
    · rintro ⟨base, hreads, hvalid, hc⟩
      exact ⟨base, hreads, hc, hvalid⟩
  · intro c hload
    have hexec : exec platform arguments s = runWith platform i c s := execBy_of_load hread hload
    obtain ⟨-, -, -, hvalid⟩ := Invocation.load_eq_ok_iff.mp hload
    refine ⟨fun run => execBy_of_load hread hload, ?_, rfl, ?_, ?_⟩
    · rw [hexec, runWith_eq_exitOf]
    · intro row hrow hfailed
      exact trials_of_mem_reports platform s hvalid hrow hfailed
    · intro hformat
      rw [hexec]
      exact document_of_runWith platform s hformat hvalid
  · intro other arguments' s' base base' hread' hreads hreads' halike
    have happly : { i with config := other }.apply base' = i.apply base := halike.apply_eq.symm
    have hload : { i with config := other }.load s' = i.load s := by
      rw [Invocation.load_of_reads hreads, Invocation.load_of_reads hreads', happly]
    refine ⟨hload, ?_⟩
    rintro rfl
    cases hloaded : i.load s' with
    | error fault =>
      have hrefused := Invocation.load_eq_error_iff.mp hloaded
      have hrefused' := Invocation.load_eq_error_iff.mp (hload.trans hloaded)
      rw [exec_eq_execBy, execBy_of_refused hread hrefused, execBy_of_refused hread' hrefused']
    | ok c =>
      rw [exec_eq_execBy, execBy_of_load hread hloaded, execBy_of_load hread' (hload.trans hloaded)]
      rfl

/-- The first of the files has no valid configuration by itself. -/
def twoFiles : Store where
  entries := [(["a"], .file 0), (["b"], .file 1)]
  contents := #["iterations = 0\n".toUTF8, "iterations = 7\n".toUTF8]

def twice (path : String) : Invocation := { config := some path, iterations := some 2 }

theorem exec_configured_twoFiles :
    CommandLine.read ["--config", "/a", "-n", "2"] = .ok (twice "/a") ∧
      ({ iterations := 0 } : Config).validate = .error (.config "iterations must be >= 1") ∧
      exec Machine.still ["--config", "/b", "-n", "2"] twoFiles =
        exec Machine.still ["--config", "/a", "-n", "2"] twoFiles := by
  have hread : CommandLine.read ["--config", "/a", "-n", "2"] = .ok (twice "/a") := by
    decide +kernel
  have hread' : CommandLine.read ["--config", "/b", "-n", "2"] = .ok (twice "/b") := by
    decide +kernel
  have hreads : (twice "/a").Reads twoFiles { iterations := 0 } := by
    have hfind : twoFiles.find "/a" = .ok (["a"], .file 0) := by cbv
    exact .file rfl (Store.readText_of_find hfind rfl) (by decide +kernel)
  have hreads' : (twice "/b").Reads twoFiles { iterations := 7 } := by
    have hfind : twoFiles.find "/b" = .ok (["b"], .file 1) := by cbv
    exact .file rfl (Store.readText_of_find hfind rfl) (by decide +kernel)
  have halike : (twice "/a").Alike { iterations := 0 } { iterations := 7 } :=
    ⟨fun h => absurd h (Option.some_ne_none 2), fun _ => rfl, rfl, fun _ => rfl, rfl⟩
  obtain ⟨-, -, -, -, -, hsame⟩ := exec_configured Machine.still hread twoFiles
  exact ⟨hread, by decide +kernel, (hsame _ _ _ _ _ hread' hreads hreads' halike).2 rfl⟩

end Program

end AccessBench
