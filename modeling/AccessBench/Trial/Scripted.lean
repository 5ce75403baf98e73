import AccessBench.Trial

/-!
A rig that follows a script and logs every call. It stands for arbitrary regions and counters: any
call can be made to fail, and every reading of the counter can be laid down.
-/

namespace AccessBench

inductive Call
  | prepare (name : String)
  | acquire (size unit : UInt64)
  | startCounter
  | touch (index : Nat) (access : Access)
  | record (bytes : UInt64)
  | rewind
  | sample
  | release
  deriving DecidableEq, Repr

/-- What the rig is to do. Calls of a kind are counted from 1. -/
structure Script where
  metric : Metric := .pageFaults
  bytes : UInt64 := 1
  /-- The readings of the counter, over and over. Without any it tells the bytes recorded. -/
  samples : Array UInt64 := #[]
  regionSize : UInt64
  regionUnit : UInt64
  /-- Whether there is nothing to prepare. -/
  skipsPrepare : Bool := false
  failingAcquire : Option Nat := none
  failingTouch : Option Nat := none
  failingSample : Option Nat := none
  failsRewind : Bool := false

/-- The calls so far, the latest one first, and what they add up to. -/
structure ScriptState where
  log : List Call := []
  acquired : Nat := 0
  touched : Nat := 0
  sampled : Nat := 0
  recorded : UInt64 := 0

namespace Script

def fault (call : String) (offset : Nat) : BenchError := .io call offset (.described "mock fault")

def note (call : Call) (s : ScriptState) : ScriptState := { s with log := call :: s.log }

def reading (script : Script) (k : Nat) (s : ScriptState) : UInt64 :=
  if script.samples.isEmpty then s.recorded
  else script.samples.getD ((k - 1) % script.samples.size) 0

def acquire (script : Script) (scenario : Scenario) (s : ScriptState) :
    Except BenchError Unit × ScriptState :=
  let k := s.acquired + 1
  let s := note (.acquire scenario.size scenario.unit) { s with acquired := k }
  if script.failingAcquire = some k then (.error (fault "acquire" k), s) else (.ok (), s)

def touch (script : Script) (index : Nat) (access : Access) (s : ScriptState) :
    Except BenchError UInt64 × ScriptState :=
  let k := s.touched + 1
  let s := note (.touch index access) { s with touched := k }
  if script.failingTouch = some k then (.error (fault "touch" index), s) else (.ok script.bytes, s)

def rewind (script : Script) (s : ScriptState) : Except BenchError Unit × ScriptState :=
  let s := note .rewind s
  if script.failsRewind then (.error (fault "rewind" 0), s) else (.ok (), s)

def sample (script : Script) (s : ScriptState) : Except BenchError UInt64 × ScriptState :=
  let k := s.sampled + 1
  let s := note .sample { s with sampled := k }
  if script.failingSample = some k then (.error (.counter Reason.invalidArgument), s)
  else (.ok (script.reading k s), s)

def record (bytes : UInt64) (s : ScriptState) : ScriptState :=
  note (.record bytes) { s with recorded := saturatingAdd s.recorded bytes }

/-- The rig that follows the script. Its clock stands still. -/
def rig (script : Script) : Rig ScriptState where
  metric := script.metric
  prepare := fun scenario s => if script.skipsPrepare then s else note (.prepare scenario.name) s
  acquire := fun scenario => .ofStep (script.acquire scenario)
  units := fun _ => unitCount script.regionSize script.regionUnit
  touch := fun index access => .ofStep (script.touch index access)
  rewind := .ofStep script.rewind
  release := note .release
  startCounter := note .startCounter
  sample := .ofStep script.sample
  record := record
  clock := fun s => (.zero, s)

end Script

end AccessBench
