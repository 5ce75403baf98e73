import AccessBench.Duration
import AccessBench.Store.File

/-!
Dropping cached pages, as far as the system lets one. A file of the system, the knob, drops all of
them; without it the pages of the fixture alone are given up by advice. Failing to drop is no error.
-/

namespace AccessBench

inductive DropOutcome
  /-- All of them, by the knob. -/
  | global
  /-- Those of one file, by advice. -/
  | advised
  | skipped
  deriving DecidableEq, Repr

def DropOutcome.key : DropOutcome → String
  | global => "global"
  | advised => "advised"
  | skipped => "skipped"

def defaultKnob : String := "/proc/sys/vm/drop_caches"

structure CacheControl where
  knob : String
  /-- Whether the knob was there when it was looked for. -/
  supported : Bool
  /-- The pause after a drop. -/
  settle : Duration := .zero
  deriving DecidableEq

namespace CacheControl

/-- Looks for a knob. Everything that is there can be written to. -/
def probe (knob : String) (settle : Duration) (s : Store) : CacheControl where
  knob := knob
  supported := s.exists? knob
  settle := settle

def disabled : CacheControl where
  knob := defaultKnob
  supported := false

def turnKnob (c : CacheControl) (s : Store) : Except Failure Store :=
  match s.openExisting c.knob true with
  | .error failure => .error failure
  | .ok opened => s.writeAt opened 0 "3".toUTF8

/-- Whether advice about a file can be given, which it can when the file can be opened. -/
def canAdvise (fixture : Option String) (s : Store) : Bool :=
  fixture.any fun path => (s.openExisting path false).isOk

/-- Drops pages by the knob or, where that fails, by advice about the fixture. -/
def drop (c : CacheControl) (fixture : Option String) (s : Store) : DropOutcome × Store :=
  match if c.supported then c.turnKnob s else .error (.reason Reason.noEntry) with
  | .ok s => (.global, s)
  | .error _ => (if canAdvise fixture s then .advised else .skipped, s)

end CacheControl

end AccessBench
