import AccessBench.Failure
import AccessBench.Halt
import AccessBench.Size

/-!
What the memory of a process has room for. That is up to the system, apart from the longest object
that there can be at all.
-/

namespace AccessBench

/-- The most bytes that one object can have. -/
def objectLimit : Nat := 0x7FFFFFFFFFFFFFFF

def indexBytes : Nat := 8

/-- What the system grants a process. -/
structure AddressSpace where
  /-- Whether there is room for an object of so many bytes. -/
  allocates : Nat → Bool
  /-- Why so many bytes cannot be mapped, if they cannot. -/
  refusal? : Nat → Option Failure

namespace AddressSpace

/-- The space with room for everything that is shorter than a limit. -/
def limited (limit : Nat) : AddressSpace where
  allocates := fun bytes => bytes < limit
  refusal? := fun bytes => if bytes < limit then none else some (.reason Reason.noMemory)

variable (space : AddressSpace)

/-- Takes room for an object of so many bytes. None is needed for no bytes. -/
def obtain (bytes : Nat) : Except Halt Unit :=
  if bytes = 0 then .ok ()
  else if objectLimit < bytes then .error .oversized
  else if space.allocates bytes then .ok ()
  else .error .outOfMemory

/-- Whether a buffer of the indices of so many units can be allocated. -/
def canIndex (units : Nat) : Bool := (space.obtain (indexBytes * units)).isOk

/-- Why so many bytes cannot be mapped, if they cannot. No bytes need no mapping, and more than an
object can have are refused before the system is asked. -/
def mapFailure? (size : Nat) : Option Failure :=
  if size = 0 then none
  else if objectLimit < size then some (.described "memory map length overflows isize")
  else space.refusal? size

end AddressSpace

end AccessBench
