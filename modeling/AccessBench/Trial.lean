import AccessBench.Action
import AccessBench.AddressSpace
import AccessBench.Row

/-!
Trials. A trial takes a fresh region, reads the counter and the clock, visits the units of the
region in the order of a pattern, reads both again and gives the region back. Regions, counters
and clocks come from a rig, so that a trial is the same over memory, files and scripts.
-/

namespace AccessBench

/-- What trials are run on: the supplier of one region at a time and of the counter that measures
it, over states of type `σ`. -/
structure Rig (σ : Type) where
  metric : Metric
  /-- Prepares for a scenario, before a region is taken. -/
  prepare : Scenario → σ → σ
  acquire : Scenario → Action σ Unit
  units : σ → Except Halt Nat
  /-- Visits a unit and gives the number of bytes moved. -/
  touch : Nat → Access → Action σ UInt64
  /-- Goes back to the start of the region before another pass. -/
  rewind : Action σ Unit
  release : σ → σ
  startCounter : σ → σ
  sample : Action σ UInt64
  /-- Tells the counter of bytes that one call moved. -/
  record : UInt64 → σ → σ
  clock : σ → Duration × σ

variable {σ : Type}

/-- Visits the units of an order, so many at most, and counts them on from `visited`. It ends with
the first visit that stops. -/
def visitFrom (visit : Nat → Action σ Unit) :
    Nat → VisitOrder → UInt64 → σ → Except Stop UInt64 × σ
  | 0, _, visited, s => (.ok visited, s)
  | fuel + 1, order, visited, s =>
    match order.next? with
    | none => (.ok visited, s)
    | some (index, rest) =>
      match (visit index).perform s with
      | (.ok (), s) => visitFrom visit fuel rest (visited + 1) s
      | (.error stop, s) => (.error stop, s)

/-- Visits all units of an order and gives their number. -/
def visitAll (visit : Nat → Action σ Unit) (order : VisitOrder) : Action σ UInt64 :=
  visitFrom visit order.remaining order 0

namespace Rig

variable (rig : Rig σ)

def warmVisit (access : Access) (index : Nat) : Action σ Unit := do
  let _ ← rig.touch index access

/-- A visit whose bytes are recorded. -/
def timedVisit (access : Access) (index : Nat) : Action σ Unit := do
  let moved ← rig.touch index access
  Action.update fun s => ((), rig.record moved s)

def regionUnits : Action σ Nat := fun s => ((rig.units s).mapError .halted, s)

/-- One pass over the region in increasing order, then back to its start. -/
def warmUp (units : Nat) (access : Access) : Action σ Unit := do
  let _ ← visitAll (rig.warmVisit access) (AccessPattern.order units .sequential)
  rig.rewind

/-- The timed pass between two readings of the counter, with two of the clock inside. -/
def measure (units : Nat) (pattern : AccessPattern) (access : Access) : Action σ Trial := do
  Action.update fun s => ((), rig.startCounter s)
  let countBefore ← rig.sample
  let start ← Action.update rig.clock
  let visited ← visitAll (rig.timedVisit access) (pattern.order units)
  let stop ← Action.update rig.clock
  let countAfter ← rig.sample
  let time := elapsed start stop
  let count := delta countBefore countAfter
  return ⟨time.duration, count.value, visited, time.clamped || count.clamped⟩

def measureRegion (s : Scenario) (pattern : AccessPattern) : Action σ Trial := do
  let units ← rig.regionUnits
  Action.ofResult (pattern.check units)
  if pattern.needsWarmup then rig.warmUp units s.access
  rig.measure units pattern s.access

/-- One trial over a fresh region, which is given back however the trial ends, by the system if
nothing else is left to do it. -/
def trial (s : Scenario) (pattern : AccessPattern) : Action σ Trial := do
  Action.update fun w => ((), rig.prepare s w)
  rig.acquire s
  Action.finally (rig.measureRegion s pattern) rig.release

/-- How often a scenario is run, for a number that has been asked for. -/
def repetitions (iterations : UInt64) : Nat := max 1 iterations.toNat

/-- The bytes that a trial takes in the list of all trials. -/
def trialBytes : Nat := 40

/-- Runs so many more trials after those that are done, the latest of which stands first. It ends
with the first trial that stops. -/
def trialsFrom (s : Scenario) (pattern : AccessPattern) :
    Nat → List Trial → σ → Except Stop (List Trial) × σ
  | 0, done, w => (.ok done.reverse, w)
  | n + 1, done, w =>
    match (rig.trial s pattern).perform w with
    | (.ok result, w) => trialsFrom s pattern n (result :: done) w
    | (.error stop, w) => (.error stop, w)

/-- Runs so many trials. Room for all of them is taken before the first one. -/
def trials (space : AddressSpace) (count : Nat) (s : Scenario) (pattern : AccessPattern) :
    Action σ (List Trial) := do
  Action.ofHalting (space.obtain (trialBytes * count))
  rig.trialsFrom s pattern count []

def failureLine (s : Scenario) (e : BenchError) : String := s.name ++ ": " ++ e.message

/-- Runs a scenario as often as asked for and averages the trials. The first trial that fails makes
it a failed row, whatever the trials before it measured, with a line for the diagnostics. -/
def repeatTrials (space : AddressSpace) (iterations : UInt64) (s : Scenario)
    (pattern : AccessPattern) : Action σ (Row × List String) := fun w =>
  match (rig.trials space (repetitions iterations) s pattern).perform w with
  | (.error (.failed e), w) => (.ok (Row.failure s rig.metric, [failureLine s e]), w)
  | (.error (.halted reason), w) => (.error (.halted reason), w)
  | (.ok results, w) =>
    (((Row.ofTrials s rig.metric results).map fun row => (row, [])).mapError .halted, w)

end Rig

end AccessBench
