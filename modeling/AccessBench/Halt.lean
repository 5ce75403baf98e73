/-!
Halts: the faults that end the whole program without a result.
-/

namespace AccessBench

inductive Halt
  /-- The number of units was asked of a unit of no bytes. -/
  | zeroUnit
  /-- A sum of spans of time is too long. -/
  | durationOverflow
  /-- A sum of counts does not fit its word. -/
  | countOverflow
  /-- A distance in bytes does not fit its word. -/
  | distanceOverflow
  /-- Room was asked for an object that is longer than any object can be. -/
  | oversized
  /-- The system has no room for an object. The program ends on the spot and cleans nothing up. -/
  | outOfMemory
  deriving DecidableEq, Repr

namespace Halt

def message : Halt → String
  | zeroUnit => "no number of empty units covers an extent"
  | durationOverflow => "a sum of durations is too long"
  | countOverflow => "a sum of counts is too large"
  | distanceOverflow => "a distance in bytes is too large"
  | oversized => "an object is too long for any memory"
  | outOfMemory => "there is no memory left for an object"

/-- Whether the program ends without going back through the calls that it is in. -/
def aborts : Halt → Bool
  | outOfMemory => true
  | _ => false

end Halt

end AccessBench
