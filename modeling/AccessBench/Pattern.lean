import AccessBench.AddressSpace
import AccessBench.Error
import AccessBench.Permutation
import AccessBench.Pattern.Order

/-!
Access patterns: in which order the units of a region are visited, apart from whether a visit reads
or writes. A random pattern holds its order; all others are described by their kind.
-/

namespace AccessBench

inductive Access
  | read
  | write
  deriving DecidableEq, Repr, Inhabited

/-- The distance between visited units, at least one. -/
structure Stride where
  units : UInt64
  ne_zero : units ≠ 0 := by decide
  deriving DecidableEq, Repr

/-- A stride of zero units is refused. -/
def Stride.ofUnits? (units : UInt64) : Option Stride :=
  if h : units = 0 then none else some ⟨units, h⟩

/-- A pattern without its visit order. -/
inductive PatternKind
  | sequential
  | stride (stride : Stride)
  | reverse
  | random
  /-- Sequential, after a pass that warms the cache. -/
  | hotCache
  deriving DecidableEq, Repr

inductive AccessPattern
  | sequential
  | stride (stride : Stride)
  | reverse
  | random (indices : Array Nat)
  | hotCache
  deriving DecidableEq, Repr

namespace AccessPattern

def ofStride (units : UInt64) : Except BenchError AccessPattern :=
  match Stride.ofUnits? units with
  | some s => .ok (.stride s)
  | none => .error (.config "stride must be at least 1 unit")

def needsWarmup : AccessPattern → Bool
  | hotCache => true
  | _ => false

/-- Refuses a random pattern whose length is not the number of units. -/
def check (units : Nat) : AccessPattern → Except BenchError Unit
  | random indices =>
    if indices.size = units then .ok () else .error (.patternMismatch units indices.size)
  | _ => .ok ()

def order (units : Nat) : AccessPattern → VisitOrder
  | sequential | hotCache => .ascending 0 1 units
  | stride s => .ascending 0 s.units.toNat (countByStep units s.units.toNat)
  | reverse => .descending units
  | random indices => .listed indices.toList

def visitCount (units : Nat) : AccessPattern → Nat
  | stride s => (units + s.units.toNat - 1) / s.units.toNat
  | random indices => indices.size
  | _ => units

end AccessPattern

/-- A permutation kept for the next use. -/
abbrev PermutationCache := Option (Array Nat)

/-- The permutation for so many units, or an error when its buffer cannot be allocated. -/
def tryPermutation (canIndex : Nat → Bool) (units : Nat) (seed : UInt64) :
    Except BenchError (Array Nat) :=
  if canIndex units then .ok (permutation units seed) else .error (.indexBuffer units)

/-- The permutation for so many units, which halts when there is no room for its buffer. -/
def boundedPermutation (space : AddressSpace) (units : Nat) (seed : UInt64) :
    Except Halt (Array Nat) :=
  (space.obtain (indexBytes * units)).map fun _ => permutation units seed

/-- Makes a pattern runnable for a region of so many units. A cached permutation of that length is
taken as it is, whatever its seed was; a new one replaces it. -/
def PatternKind.materialize (canIndex : Nat → Bool) (units : Nat) (seed : UInt64)
    (cache : PermutationCache) : PatternKind → Except BenchError AccessPattern × PermutationCache
  | sequential => (.ok .sequential, cache)
  | stride s => (.ok (.stride s), cache)
  | reverse => (.ok .reverse, cache)
  | hotCache => (.ok .hotCache, cache)
  | random =>
    match cache.filter (·.size = units) with
    | some indices => (.ok (.random indices), cache)
    | none =>
      match tryPermutation canIndex units seed with
      | .ok indices => (.ok (.random indices), some indices)
      | .error e => (.error e, cache)

end AccessBench
