/-!
Which suites a run covers.
-/

namespace AccessBench

inductive Suites
  /-- Memory faults, then file readahead. -/
  | all
  | memory
  | file
  deriving DecidableEq, Repr, Inhabited

namespace Suites

def ofKey? (key : String) : Option Suites :=
  if key = "all" then some all
  else if key = "memory" then some memory
  else if key = "file" then some file
  else none

def key : Suites → String
  | all => "all"
  | memory => "memory"
  | file => "file"

def coversMemory (s : Suites) : Bool := s ≠ file

def coversFile (s : Suites) : Bool := s ≠ memory

end Suites

end AccessBench
