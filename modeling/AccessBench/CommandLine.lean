import AccessBench.Config
import AccessBench.Decimal.Natural
import AccessBench.Report.Format
import AccessBench.Suites

/-!
What the command line can ask for, and the texts of its values.
-/

namespace AccessBench

structure Invocation where
  path : Option String := none
  suites : Suites := .all
  format : Format := .text
  config : Option String := none
  iterations : Option UInt64 := none
  seed : Option UInt64 := none
  reuseFixture : Bool := false
  keepFixture : Bool := false
  debug : Bool := false
  deriving DecidableEq, Repr

/-- The configuration with what the command line overrides. -/
def Invocation.apply (i : Invocation) (c : Config) : Config where
  iterations := i.iterations.getD c.iterations
  randomSeed := i.seed.getD c.randomSeed
  memory := c.memory
  file := { c.file with path := i.path.getD c.file.path }

/-- Why there is no invocation. -/
inductive UsageStop
  /-- A value is missing, empty or none of those allowed. -/
  | invalidValue
  | unknownArgument
  /-- A setting or flag is given twice. -/
  | argumentConflict
  /-- A flag is given a value. -/
  | tooManyValues
  /-- A value is not of its form. -/
  | valueValidation (message : String)
  | displayHelp (long : Bool)
  | displayVersion
  deriving DecidableEq, Repr

def readSeed : List Char → Except Decimal.DigitError UInt64
  | '0' :: 'x' :: digits => Decimal.readWord 16 digits
  | '0' :: 'X' :: digits => Decimal.readWord 16 digits
  | digits => Decimal.readWord 10 digits

/-- The seed that a text stands for, or a message that names the text. -/
def parseSeed (text : String) : Except String UInt64 :=
  match readSeed text.toList with
  | .ok seed => .ok seed
  | .error e => .error ("invalid seed '" ++ text ++ "': " ++ e.message)

inductive Setting
  | path
  | suites
  | format
  | config
  | iterations
  | seed
  deriving DecidableEq, Repr

def Setting.assign (value : String) (i : Invocation) : Setting → Except UsageStop Invocation
  | path => if value.isEmpty then .error .invalidValue else .ok { i with path := some value }
  | config => if value.isEmpty then .error .invalidValue else .ok { i with config := some value }
  | suites =>
    match Suites.ofKey? value with
    | some chosen => .ok { i with suites := chosen }
    | none => .error .invalidValue
  | format =>
    match Format.ofKey? value with
    | some chosen => .ok { i with format := chosen }
    | none => .error .invalidValue
  | iterations =>
    match Decimal.readWord 10 value.toList with
    | .ok n => .ok { i with iterations := some n }
    | .error e => .error (.valueValidation e.message)
  | seed =>
    match parseSeed value with
    | .ok n => .ok { i with seed := some n }
    | .error message => .error (.valueValidation message)

inductive Flag
  | reuseFixture
  | keepFixture
  | debug
  deriving DecidableEq, Repr

def Flag.set (i : Invocation) : Flag → Invocation
  | reuseFixture => { i with reuseFixture := true }
  | keepFixture => { i with keepFixture := true }
  | debug => { i with debug := true }

end AccessBench
