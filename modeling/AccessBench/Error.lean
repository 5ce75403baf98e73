import AccessBench.Failure

/-!
What can go wrong while a scenario is prepared or measured, with the message of each cause.
-/

namespace AccessBench

inductive BenchError
  | fixtureCreate (path : String) (source : Failure)
  | fixtureOpen (path : String) (source : Failure)
  | fixtureTooSmall (path : String) (length needed : Nat)
  | map (size : Nat) (source : Failure)
  | io (call : String) (offset : Nat) (source : Failure)
  | counter (reason : Nat)
  | indexBuffer (units : Nat)
  | patternMismatch (expected actual : Nat)
  | output (source : Failure)
  | config (text : String)
  | configParse
  | configRead (path : String) (source : Failure)
  deriving DecidableEq, Repr

namespace BenchError

/-- The text of the error under this one, if there is one. -/
def source? : BenchError → Option String
  | fixtureCreate _ source | fixtureOpen _ source | map _ source | io _ _ source | output source
  | configRead _ source => some source.message
  | counter reason => some (processReasonText reason)
  | configParse => some "malformed document"
  | fixtureTooSmall .. | indexBuffer _ | patternMismatch .. | config _ => none

def message : BenchError → String
  | fixtureCreate path source => "create fixture " ++ path ++ ": " ++ source.message
  | fixtureOpen path source => "open fixture " ++ path ++ ": " ++ source.message
  | fixtureTooSmall path length needed =>
    "fixture " ++ path ++ " is " ++ toString length ++ " bytes, scenario needs " ++ toString needed
  | map size source => "mmap of " ++ toString size ++ " bytes failed: " ++ source.message
  | io call offset source =>
    call ++ " at offset " ++ toString offset ++ " failed: " ++ source.message
  | counter reason => "getrusage failed: " ++ processReasonText reason
  | indexBuffer units =>
    "failed to allocate random index buffer for " ++ toString units ++ " units"
  | patternMismatch expected actual =>
    "permutation covers " ++ toString actual ++ " units but region has " ++ toString expected
  | output source => "write report: " ++ source.message
  | config text => "invalid configuration: " ++ text
  | configParse => "parse configuration: malformed document"
  | configRead path source => "read configuration " ++ path ++ ": " ++ source.message

end BenchError

end AccessBench
