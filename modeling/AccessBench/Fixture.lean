import AccessBench.Error
import AccessBench.Fixture.Content
import AccessBench.Store.File

/-!
Fixture files. One that the program has made is removed when it is no longer needed, unless it is to
be kept; one that was there before is only read.
-/

namespace AccessBench

structure FixtureFile where
  path : String
  length : UInt64
  owned : Bool
  deriving DecidableEq, Repr

namespace FixtureFile

/-- Makes a file of a size, or gives the one at the path new contents. -/
def create (path : String) (size : UInt64) (mode : FillMode) (seed : UInt64) (s : Store) :
    Except BenchError FixtureFile × Store :=
  match s.put path (fixtureContent mode seed size.toNat) with
  | .error failure => (.error (.fixtureCreate path failure), s)
  | .ok s => (.ok ⟨path, size, true⟩, s)

def adopt (path : String) (s : Store) : Except BenchError FixtureFile :=
  match s.sizeOf? path with
  | .error failure => .error (.fixtureOpen path failure)
  | .ok length => .ok ⟨path, UInt64.ofNat length, false⟩

def keep (f : FixtureFile) : FixtureFile := { f with owned := false }

/-- Ends the use of a fixture. A file that cannot be removed is left behind. -/
def discard (f : FixtureFile) (s : Store) : Store :=
  if f.owned then
    match s.remove f.path with
    | .ok s => s
    | .error _ => s
  else s

end FixtureFile

end AccessBench
