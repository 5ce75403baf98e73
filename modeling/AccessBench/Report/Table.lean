import AccessBench.Decimal.Fixed
import AccessBench.Report.Event
import AccessBench.Report.Writer

/-!
Fixed-width text tables. Every event is written at once. The columns depend on the suite of the
section.
-/

namespace AccessBench

/-- Fills a text up with blanks on its right. Widths count characters. -/
def padRight (width : Nat) (text : String) : String :=
  text ++ String.ofList (List.replicate (width - text.length) ' ')

/-- Fills a text up with blanks on its left. -/
def padLeft (width : Nat) (text : String) : String :=
  String.ofList (List.replicate (width - text.length) ' ') ++ text

namespace Table

def bannerRule : String := String.ofList (List.replicate 62 '=')

def memoryRule : String := String.ofList (List.replicate 86 '-')

def fileRule : String := String.ofList (List.replicate 90 '-')

def lines (texts : List String) : String := String.join (texts.map (· ++ "\n"))

/-- Lines between two rules, after an empty line. -/
def banner (texts : List String) : String :=
  lines (["", bannerRule] ++ texts.map ("    " ++ ·) ++ [bannerRule])

def header : Suite → String
  | .memory => lines [
      " ".intercalate [padRight 25 "Test", padLeft 10 "Size", padLeft 12 "Time(us)",
        padLeft 10 "Faults", padLeft 12 "us/fault", padLeft 10 "Speed"],
      memoryRule]
  | .file => lines [
      " ".intercalate [padRight 40 "Test", padLeft 10 "Size", padLeft 10 "Block",
        padLeft 12 "Time(us)", padLeft 12 "MB/s"],
      fileRule]

/-- The size of a region in whole units of `gib` or, below one of them, of `mib`. -/
def regionSize (bytes : UInt64) : String :=
  if gib ≤ bytes.toNat then toString (bytes.toNat / gib) ++ " GB"
  else toString (bytes.toNat / mib) ++ " MB"

def marker (r : Row) : String :=
  if r.failed then "  [failed]" else if r.clamped then "  [clamped]" else ""

def rowLine (suite : Suite) (r : Row) : String :=
  match suite with
  | .memory =>
    " ".intercalate [padRight 25 r.name, padLeft 10 (regionSize r.sizeBytes),
      padLeft 12 (toString r.duration.toMicros), padLeft 10 (toString r.auxCount),
      padLeft 12 (Decimal.fixed 3 r.perUnit), padLeft 7 (Decimal.fixed 0 r.throughput), "MB/s"]
      ++ marker r
  | .file =>
    " ".intercalate [padRight 40 r.name, padLeft 8 (toString (r.bytesMoved.toNat / kib)) ++ "KB",
      padLeft 8 (toString r.blockSize) ++ "B", padLeft 12 (toString r.duration.toMicros),
      padLeft 12 (Decimal.fixed 2 r.throughput)]
      ++ marker r

end Table

/-- A table that is being written to a place. -/
structure Table (ω : Type) where
  /-- The suite that the columns follow. -/
  suite : Suite := .memory
  /-- Whether a section has begun, so that the next one is set off by an empty line. -/
  hasSection : Bool := false
  out : ω

namespace Table

variable {ω : Type}

def eventText (table : Table ω) : Event → String
  | .opened title texts => banner (title :: texts)
  | .entered title suite =>
    (if table.hasSection then "\n" else "") ++ lines [title] ++ header suite
  | .measured row => lines [rowLine table.suite row]
  | .noted message => lines ["Error: " ++ message]
  | .finished text => banner [text]

/-- A section sets the columns of the rows after it. -/
def advance (table : Table ω) : Event → Table ω
  | .entered _ suite => { table with suite := suite, hasSection := true }
  | _ => table

def receive (writer : Writer ω) (event : Event) (table : Table ω) : Reply (Table ω) :=
  let (result, out) := writer.write (table.eventText event) table.out
  ⟨{ table.advance event with out := out }, [], result⟩

def sink (writer : Writer ω) : Sink (Table ω) := ⟨receive writer⟩

end Table

end AccessBench
