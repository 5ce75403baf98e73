import AccessBench.Pattern
import AccessBench.Size

/-!
Scenarios: a workload over a region of a size, divided into units. A section groups scenarios
under a title, and a matrix is a list of sections in the order of the report.
-/

namespace AccessBench

inductive Suite
  | memory
  | file
  deriving DecidableEq, Repr, Inhabited

def Suite.key : Suite → String
  | memory => "memory"
  | file => "file"

/-- One workload over a region of `size` bytes in units of `unit` bytes. -/
structure Scenario where
  name : String
  kind : PatternKind
  access : Access
  size : UInt64
  unit : UInt64
  /-- Whether cached pages are evicted before every trial. -/
  dropCache : Bool := false
  deriving DecidableEq, Repr

namespace Scenario

def cold (s : Scenario) : Scenario := { s with dropCache := true }

def units (s : Scenario) : Except Halt Nat := unitCount s.size s.unit

end Scenario

structure Section where
  title : String
  suite : Suite
  scenarios : List Scenario
  deriving DecidableEq, Repr

abbrev Matrix := List Section

def Matrix.scenarioCount (m : Matrix) : Nat :=
  (m.map (·.scenarios.length)).foldl (· + ·) 0

end AccessBench
