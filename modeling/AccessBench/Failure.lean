import AccessBench.Failure.Reason

/-!
Why a call to the system failed: a numbered reason of the system, a kind of failure without a
number, or a failure that describes itself.
-/

namespace AccessBench

/-- A kind of failure that has no number. -/
inductive FailureKind
  | notFound
  | permissionDenied
  | alreadyExists
  | brokenPipe
  | wouldBlock
  | notDirectory
  | isDirectory
  | directoryNotEmpty
  | readOnly
  | invalidInput
  | invalidData
  | timedOut
  | writeZero
  | storageFull
  | notSeekable
  | fileTooLarge
  | resourceBusy
  | interrupted
  | unsupported
  | unexpectedEnd
  | outOfMemory
  | other
  deriving DecidableEq, Repr

def FailureKind.text : FailureKind → String
  | notFound => "entity not found"
  | permissionDenied => "permission denied"
  | alreadyExists => "entity already exists"
  | brokenPipe => "broken pipe"
  | wouldBlock => "operation would block"
  | notDirectory => "not a directory"
  | isDirectory => "is a directory"
  | directoryNotEmpty => "directory not empty"
  | readOnly => "read-only filesystem or storage medium"
  | invalidInput => "invalid input parameter"
  | invalidData => "invalid data"
  | timedOut => "timed out"
  | writeZero => "write zero"
  | storageFull => "no storage space"
  | notSeekable => "seek on unseekable file"
  | fileTooLarge => "file too large"
  | resourceBusy => "resource busy"
  | interrupted => "operation interrupted"
  | unsupported => "unsupported"
  | unexpectedEnd => "unexpected end of file"
  | outOfMemory => "out of memory"
  | other => "other error"

/-- Why a call to the system failed. -/
inductive Failure
  | reason (number : Nat)
  | kind (kind : FailureKind)
  | described (text : String)
  deriving DecidableEq, Repr

def Failure.message : Failure → String
  | reason number => reasonText number ++ " (os error " ++ toString number ++ ")"
  | kind k => k.text
  | described text => text

end AccessBench
