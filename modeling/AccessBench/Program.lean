import AccessBench.CommandLine.Help
import AccessBench.CommandLine.Reader
import AccessBench.Config.Reader
import AccessBench.Config.Validation
import AccessBench.Machine
import AccessBench.Report

/-!
The whole program: from the arguments to the text of a report, the lines for the diagnostics and an
exit code. Nothing is measured or written before the configuration has been found valid.
-/

namespace AccessBench

def Config.ofFile (path : String) (s : Store) : Except BenchError Config :=
  match s.readAll path with
  | .error failure => .error (.configRead path failure)
  | .ok bytes =>
    match String.fromUTF8? bytes with
    | none => .error (.configRead path (.described "stream did not contain valid UTF-8"))
    | some text =>
      match Config.ofToml? text with
      | some config => .ok config
      | none => .error .configParse

inductive Stage
  | loading (path : String)
  | validating
  | running
  deriving DecidableEq, Repr

def Stage.message : Stage → String
  | loading path => "failed to load config " ++ path
  | validating => "invalid configuration"
  | running => "benchmark run failed"

structure Fault where
  stage : Stage
  error : BenchError
  deriving DecidableEq, Repr

namespace Fault

/-- The texts of the causes below the first message, the outermost first. -/
def causes (f : Fault) : List String := f.error.message :: f.error.source?.toList

/-- A cause on a line of its own, with its number if there are several. -/
def causeLine (several : Bool) (number : Nat) (cause : String) : String :=
  if several then "    " ++ toString number ++ ": " ++ cause else "    " ++ cause

/-- The lines that the program ends with. -/
def lines (f : Fault) : List String :=
  let several := decide (1 < f.causes.length)
  ["Error: " ++ f.stage.message, "", "Caused by:"] ++
    f.causes.zipIdx.map fun cause => causeLine several cause.2 cause.1

end Fault

/-- The configuration before the overrides: that of the file, or the default one. -/
def Invocation.baseConfig (i : Invocation) (s : Store) : Except Fault Config :=
  match i.config with
  | none => .ok {}
  | some path =>
    match Config.ofFile path s with
    | .ok config => .ok config
    | .error e => .error ⟨.loading path, e⟩

def Config.checked (c : Config) : Except Fault Config :=
  match c.validate with
  | .ok () => .ok c
  | .error e => .error ⟨.validating, e⟩

/-- The configuration that an invocation asks for. The overrides of the command line are made before
it is checked. -/
def Invocation.load (i : Invocation) (s : Store) : Except Fault Config :=
  match i.baseConfig s with
  | .ok base => (i.apply base).checked
  | .error fault => .error fault

def Invocation.benchmark (i : Invocation) (c : Config) : Benchmark where
  config := c
  reuseFixture := i.reuseFixture
  keepFixture := i.keepFixture

structure Exit where
  code : Nat
  output : String := ""
  diagnostics : List String := []
  store : Store

namespace Exit

def ofFault (fault : Fault) (output : String) (diagnostics : List String) (s : Store) : Exit :=
  ⟨1, output, diagnostics ++ fault.lines, s⟩

/-- The end by a halt, after the output and the diagnostics so far. -/
def ofHalt (reason : Halt) (output : String) (diagnostics : List String) (s : Store) : Exit :=
  ⟨if reason.aborts then 134 else 101, output, diagnostics ++ [reason.message], s⟩

def ofUsage (stop : UsageStop) (s : Store) : Exit :=
  match stop with
  | .displayHelp long => ⟨0, CommandLine.linesText (CommandLine.helpLines long), [], s⟩
  | .displayVersion => ⟨0, CommandLine.linesText [CommandLine.versionLine], [], s⟩
  | .valueValidation message => ⟨2, "", ["error: " ++ message], s⟩
  | .invalidValue => ⟨2, "", ["error: invalid value"], s⟩
  | .unknownArgument => ⟨2, "", ["error: unexpected argument"], s⟩
  | .argumentConflict => ⟨2, "", ["error: an argument cannot be used multiple times"], s⟩
  | .tooManyValues => ⟨2, "", ["error: unexpected value"], s⟩

end Exit

namespace Program

/-- Runs an invocation under its configuration. -/
def runWith (platform : Platform) (i : Invocation) (c : Config) (s : Store) : Exit :=
  let report := Report.start i.format c.iterations ({} : Page)
  match (i.benchmark c).run (Machine.host platform) (Report.sink Page.writer) i.suites
      { store := s } report with
  | (.error (.failed e), r) =>
    Exit.ofFault ⟨.running, e⟩ r.sink.out.text r.diagnostics r.world.store
  | (.error (.halted reason), r) =>
    Exit.ofHalt reason r.sink.out.text r.diagnostics r.world.store
  | (.ok _, r) => ⟨0, r.sink.out.text, r.diagnostics, r.world.store⟩

/-- The program from its arguments to its end. -/
def exec (platform : Platform) (arguments : List String) (s : Store) : Exit :=
  match CommandLine.read arguments with
  | .error stop => Exit.ofUsage stop s
  | .ok i =>
    match i.load s with
    | .error fault => Exit.ofFault fault "" [] s
    | .ok c => runWith platform i c s

end Program

end AccessBench
